import M8flow.Lib.Text

/-!
# The path of a URL

`urllib.parse.urlparse(url).path`.  The checks that `urlsplit` makes of a network location, for
brackets and for characters that change under normalization, are a parameter: they only raise.
-/

namespace M8flow.Lib.Url

/-- `_WHATWG_C0_CONTROL_OR_SPACE`. -/
def isC0ControlOrSpace (c : Char) : Bool := c.toNat ≤ 32

/-- `_UNSAFE_URL_BYTES_TO_REMOVE`. -/
def isUnsafe (c : Char) : Bool := c = '\t' || c = '\r' || c = '\n'

/-- `scheme_chars`. -/
def isSchemeChar (c : Char) : Bool := c.isAlphanum || c = '+' || c = '-' || c = '.'

/-- `uses_params`. -/
def usesParams : List Text :=
  ["".toList, "ftp".toList, "hdl".toList, "prospero".toList, "http".toList, "https".toList,
    "shttp".toList, "rtsp".toList, "rtsps".toList, "rtspu".toList, "sip".toList, "sips".toList,
    "mms".toList, "sftp".toList, "tel".toList]

/-- The scheme in lower case, and what follows its colon. -/
def splitScheme (url : Text) : Text × Text :=
  let (scheme, found, rest) := Text.partition ':' url
  if found ∧ scheme.head?.any Char.isAlpha ∧ scheme.all isSchemeChar then
    (scheme.map Char.toLower, rest)
  else ([], url)

/-- `_splitnetloc`: the network location, and what follows. -/
def splitNetloc (url : Text) : Text × Text :=
  if "//".toList.isPrefixOf url then
    ((url.drop 2).takeWhile fun c => c ∉ ['/', '?', '#'],
      (url.drop 2).dropWhile fun c => c ∉ ['/', '?', '#'])
  else ([], url)

/-- `_splitparams(url)[0]`: up to a semicolon in the last segment. -/
def dropParams (url : Text) : Text :=
  let (before, found, last) := Text.rpartition '/' url
  if found then before ++ '/' :: last.takeWhile (· ≠ ';') else url.takeWhile (· ≠ ';')

/-- `urlparse(url).path`: nothing stands for the `ValueError`. -/
def path (netlocIsValid : Text → Bool) (url : Text) : Option Text :=
  let (scheme, rest) := splitScheme ((url.dropWhile isC0ControlOrSpace).filter (!isUnsafe ·))
  let (netloc, rest) := splitNetloc rest
  if netlocIsValid netloc then
    let path := (rest.takeWhile (· ≠ '#')).takeWhile (· ≠ '?')
    some (if scheme ∈ usesParams then dropParams path else path)
  else none

example : path (fun _ => true) "https://kc:8080/realms/m8flow;x?y#z".toList =
    some "/realms/m8flow".toList := by decide

end M8flow.Lib.Url
