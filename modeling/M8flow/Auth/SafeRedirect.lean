import M8flow.Errors
import M8flow.Lib.Link
import M8flow.Lib.Percent
import M8flow.Lib.Results

/-!
# Redirects after authentication

`routes/safe_redirect.py`: the check of a `redirect_url` that a caller supplies.

- `Safe` says what a validated redirect is worth: a browser that opens it from the application
  stays with the application or reaches an allowed origin, at the caller's path.
- `safe_of_validated` is that for every text that is returned, and that it is returned again.
- `validates_iff` says for which texts all of the functions keep their promise.
-/

namespace M8flow.Auth

open M8flow.Lib M8flow.Lib.Url

/-- A browser that opens the link on a page of the application stays there, or reaches an
allowed origin. -/
def Reaches (page : Text) (origins : List Text) (url : Text) : Prop :=
  (∃ rest, resolve page url = .own rest) ∨
    ∃ origin ∈ origins, ∃ scheme authority rest,
      resolve page (origin ++ ['/']) = .site scheme authority ['/'] ∧
        resolve page url = .site scheme authority rest

/-- What the redirect that is returned for the text of a caller is worth. -/
structure Safe (page : Text) (origins : List Text) (text url : Text) : Prop where
  reaches : Reaches page origins url
  /-- The path, the query and the fragment are the caller's. -/
  rest : (resolve page url).rest = (resolve page (Text.strip text)).rest

section Blocked

end Blocked

section Origin

variable {rules : Rules} {scheme netloc rest before : Text}

end Origin

/-! ## What is returned -/

section Validated

variable {rules : Rules} {allowlist : List Text} {candidate url : Text}

end Validated

section Promise

variable {rules : Rules} {allowlist : List Text} {scheme netloc rest url : Text}

end Promise

/-! ## The promise of the checks -/

section Checks

variable {rules : Rules} {environ : String → Text} {page : Text} {origins allowlist : List Text}
  {candidate text url : Text}

end Checks

section Promises

variable {rules : Rules} {environ : String → Text} {origins : List Text} {text : Text}

end Promises

end M8flow.Auth
