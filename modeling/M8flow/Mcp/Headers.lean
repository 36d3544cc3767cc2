import M8flow.Lib.Cookie
import M8flow.Lib.Dict

/-!
# The headers of a call to the backend

`_build_headers` of `api_client.py`.  The backend takes the active tenant from the
`m8flow_selected_tenant` cookie, so the client adds the cookie of the resolved
tenant and takes the caller's own out of the `Cookie` header that the caller gave.

A header's name is the same in any case, and a caller's header `cookie` is not the
`Cookie` that the client looks for.  What such a header has comes after the
tenant's cookie where there is one, and is all there is where there is none:
`buildHeaders_iff`.
-/

namespace M8flow.Mcp

open M8flow.Lib

/-- `SELECTED_TENANT_COOKIE_NAME`. -/
def selectedTenantCookieName : Text := "m8flow_selected_tenant".toList

def cookieHeader : Text := "Cookie".toList

/-- A text of the tenant's cookie. -/
def tenantPair (tenantId : Text) : Text := selectedTenantCookieName ++ '=' :: tenantId

/-- The headers of every call. -/
def baseHeaders (tenantId : Option Text) (token : Text) : Dict Text Text :=
  let headers := Dict.ofEntries [("Content-Type".toList, "application/json".toList),
    ("Accept".toList, "application/json".toList)]
  let headers := headers.set "Authorization".toList
    (if "Bearer ".toList.isPrefixOf token then token else "Bearer ".toList ++ token)
  match truthy tenantId with
  | some tenantId => headers.set cookieHeader (tenantPair tenantId)
  | none => headers

/-- A part of the caller's cookies that is passed on. -/
def keepsPart (part : Text) : Bool :=
  part.strip ≠ [] && (Text.firstPart '=' part).strip ≠ selectedTenantCookieName

/-- The caller's `Cookie` merged with the one that is there. -/
def mergeCookie (headers : Dict Text Text) (callerCookie : Text) : Dict Text Text :=
  let pairs := ((Text.splitOn [';'] callerCookie).filter keepsPart).map Text.strip ++
    (truthy (headers.get? cookieHeader)).toList
  if pairs = [] then headers else headers.set cookieHeader ("; ".toList.intercalate pairs)

/-- `_build_headers`, with the resolved tenant. -/
def buildHeaders (tenantId : Option Text) (token : Text) (extraHeaders : Option (Dict Text Text)) :
    Dict Text Text :=
  let headers := baseHeaders tenantId token
  match extraHeaders with
  | none => headers
  | some extra =>
      if extra.entries = [] then headers
      else
        let headers := headers.merge (extra.pop cookieHeader)
        match truthy (extra.get? cookieHeader) with
        | some callerCookie => mergeCookie headers callerCookie
        | none => headers

/-! ## What the backend reads -/

/-- A header that is read for cookies; the names of headers have no case. -/
def isCookieName (name : Text) : Bool := name.map Char.toLower = "cookie".toList

/-- The headers that are read for cookies. -/
def cookieHeaders (headers : List (Text × Text)) : List (Text × Text) :=
  headers.filter fun header => isCookieName header.1

/-- The cookies of all of them, in order. -/
def cookiesOf (headers : List (Text × Text)) : List (Text × Text) :=
  (cookieHeaders headers).flatMap fun header => cookiePairs header.2

/-- The value of a cookie: of several with its name the first. -/
def readCookie (headers : List (Text × Text)) (name : Text) : Option Text :=
  ((cookiesOf headers).find? fun pair => pair.1 = name).map Prod.snd

/-- The cookies of a caller that are not the tenant's. -/
def isOther (pair : Text × Text) : Bool := pair.1 ≠ selectedTenantCookieName

/-- The headers that the caller gave. -/
def callerHeaders (extraHeaders : Option (Dict Text Text)) : List (Text × Text) :=
  (extraHeaders.getD Dict.empty).entries

/-- The backend reads the resolved tenant, and the caller's other cookies as the caller gave
them, in some order of the caller's headers. -/
structure Faithful (tenantId : Option Text) (extra headers : List (Text × Text)) : Prop where
  tenant : readCookie headers selectedTenantCookieName = truthy tenantId
  others : ∃ callers, callers.Perm extra ∧
    (cookiesOf headers).filter isOther = (cookiesOf callers).filter isOther

/-- The condition: a tenant that a cookie can carry, and without a tenant no tenant's cookie in
another spelling of the header. -/
structure Unspoofed (tenantId : Option Text) (extra : List (Text × Text)) : Prop where
  carried : ∀ tenant, truthy tenantId = some tenant → ';' ∉ tenant ∧ tenant.strip = tenant
  absent : truthy tenantId = none → ∀ header ∈ extra, header.1 ≠ cookieHeader →
    isCookieName header.1 = true → ∀ pair ∈ cookiePairs header.2, isOther pair = true

/-! ## The caller's `Cookie` header -/

/-- The parts that are passed on have the caller's other cookies. -/
theorem flatMap_keepsPart (callerCookie : Text) :
    (((Text.splitOn [';'] callerCookie).filter keepsPart).map Text.strip).flatMap cookiePairs =
      (cookiePairs callerCookie).filter isOther := by
  have hsemicolon : ∀ part ∈ Text.splitOn [';'] callerCookie, ';' ∉ part :=
    fun part hpart => Text.not_mem_of_mem_splitOn hpart
  rw [cookiePairs_eq_flatMap callerCookie]
  generalize Text.splitOn [';'] callerCookie = parts at hsemicolon ⊢
  induction parts with
  | nil => rfl
  | cons part parts ih =>
      obtain ⟨hpart, hparts⟩ := List.forall_mem_cons.mp hsemicolon
      have hstrip : ';' ∉ part.strip := fun h => hpart ((Text.stripWhere_isInfix part).subset h)
      have hpairs : cookiePairs part.strip = cookiePairs part := by
        rw [cookiePairs_of_not_mem hstrip, cookiePairs_of_not_mem hpart, cookiePair_strip]
      rw [List.flatMap_cons, List.filter_append, ← ih hparts]
      by_cases hkeeps : keepsPart part = true
      · have hother : (cookiePairs part).filter isOther = cookiePairs part := by
          rw [cookiePairs_of_not_mem hpart, List.filter_eq_self]
          intro pair hpair
          have hname := cookiePair_fst (Option.mem_toList.mp hpair)
          obtain ⟨-, hne⟩ := Bool.and_eq_true_iff.mp hkeeps
          rw [isOther, hname]
          exact hne
        rw [List.filter_cons_of_pos hkeeps, List.map_cons, List.flatMap_cons, hpairs, hother]
      · have hnone : (cookiePairs part).filter isOther = [] := by
          rw [cookiePairs_of_not_mem hpart, List.filter_eq_nil_iff]
          intro pair hpair hother
          have hsome := Option.mem_toList.mp hpair
          apply hkeeps
          rw [keepsPart, Bool.and_eq_true]
          refine ⟨decide_eq_true ?_, ?_⟩
          · intro hnil
            rw [← cookiePair_strip, hnil] at hsome
            cases hsome
          · rw [← cookiePair_fst hsome]
            exact hother
        rw [List.filter_cons_of_neg hkeeps, hnone, List.nil_append]

theorem cookiesOf_append (headers more : List (Text × Text)) :
    cookiesOf (headers ++ more) = cookiesOf headers ++ cookiesOf more := by
  unfold cookiesOf cookieHeaders
  rw [List.filter_append, List.flatMap_append]

/-! ## The headers of every call -/

/-- The headers that have nothing to do with the tenant. -/
def plainHeaders (token : Text) : List (Text × Text) :=
  [("Content-Type".toList, "application/json".toList),
    ("Accept".toList, "application/json".toList),
    ("Authorization".toList,
      if "Bearer ".toList.isPrefixOf token then token else "Bearer ".toList ++ token)]

/-- The header of the resolved tenant, where there is one. -/
def tenantHeader (tenantId : Option Text) : List (Text × Text) :=
  (truthy tenantId).toList.map fun tenantId => (cookieHeader, tenantPair tenantId)

theorem isCookieName_cookieHeader : isCookieName cookieHeader = true := by decide

theorem cookiesOf_singleton (value : Text) :
    cookiesOf [(cookieHeader, value)] = cookiePairs value := by
  have hfilter : cookieHeaders [(cookieHeader, value)] = [(cookieHeader, value)] :=
    List.filter_cons_of_pos isCookieName_cookieHeader
  rw [cookiesOf, hfilter, List.flatMap_singleton]

theorem not_isCookieName_plain {token : Text} :
    ∀ header ∈ plainHeaders token, isCookieName header.1 = false := by
  intro header hheader
  have hname : header.1 ∈ ["Content-Type".toList, "Accept".toList, "Authorization".toList] :=
    List.mem_map_of_mem (f := Prod.fst) hheader
  simp only [List.mem_cons, List.not_mem_nil, or_false] at hname
  obtain h | h | h := hname
  · rw [h]
    decide
  · rw [h]
    decide
  · rw [h]
    decide

theorem entries_baseHeaders (tenantId : Option Text) (token : Text) :
    (baseHeaders tenantId token).entries = plainHeaders token ++ tenantHeader tenantId := by
  have hfirst : (Dict.ofEntries [("Content-Type".toList, "application/json".toList),
      ("Accept".toList, "application/json".toList)]).entries =
        [("Content-Type".toList, "application/json".toList),
          ("Accept".toList, "application/json".toList)] := Dict.entries_ofEntries (by decide)
  have hnew : "Authorization".toList ∉ (Dict.ofEntries
      [("Content-Type".toList, "application/json".toList),
        ("Accept".toList, "application/json".toList)]).keys := by
    rw [Dict.keys, hfirst]
    decide
  have hplain := Dict.entries_set_new hnew
    (if "Bearer ".toList.isPrefixOf token then token else "Bearer ".toList ++ token)
  rw [hfirst] at hplain
  unfold baseHeaders tenantHeader
  cases truthy tenantId with
  | none => exact hplain
  | some tenantId =>
      have hnew : cookieHeader ∉ ["Content-Type".toList, "Accept".toList, "Authorization".toList] :=
        by decide
      dsimp only
      rw [Dict.entries_set_new (by rw [Dict.keys, hplain]; exact hnew), hplain]
      rfl

/-- The one header of them that is read for cookies. -/
theorem mem_keys_baseHeaders {tenantId : Option Text} {token key : Text}
    (hname : isCookieName key = true) (h : key ∈ (baseHeaders tenantId token).keys) :
    key = cookieHeader := by
  rw [Dict.keys, entries_baseHeaders, List.map_append] at h
  cases List.mem_append.mp h with
  | inl hplain =>
      obtain ⟨header, hheader, hkey⟩ := List.mem_map.mp hplain
      rw [← hkey, not_isCookieName_plain header hheader] at hname
      cases hname
  | inr htenant =>
      obtain ⟨header, hheader, hkey⟩ := List.mem_map.mp htenant
      obtain ⟨tenant, -, hpair⟩ := List.mem_map.mp hheader
      rw [← hkey, ← hpair]

/-! ## The cookies of the built headers -/

section Build

variable {tenantId : Option Text} {token : Text} {extra : Dict Text Text}

/-- The caller's cookies that are passed on in the client's `Cookie` header. -/
def mergedCookies (extra : Dict Text Text) : List (Text × Text) :=
  (cookiePairs ((extra.get? cookieHeader).getD [])).filter isOther

/-- The cookies of the caller's headers in another spelling. -/
def spelledCookies (extra : Dict Text Text) : List (Text × Text) :=
  cookiesOf (extra.pop cookieHeader).entries

theorem cookieHeader_not_mem_pop : cookieHeader ∉ (extra.pop cookieHeader).keys := by
  rw [← Dict.get?_eq_none, Dict.get?_pop, if_pos rfl]

/-- Before the caller's `Cookie` is merged: the tenant's header and the caller's. -/
theorem cookieHeaders_merge :
    cookieHeaders ((baseHeaders tenantId token).merge (extra.pop cookieHeader)).entries =
      tenantHeader tenantId ++ cookieHeaders (extra.pop cookieHeader).entries := by
  have hdisjoint : ∀ key, isCookieName key = true → key ∈ (baseHeaders tenantId token).keys →
      key ∉ (extra.pop cookieHeader).keys := by
    intro key hname hkey
    rw [mem_keys_baseHeaders hname hkey]
    exact cookieHeader_not_mem_pop
  unfold cookieHeaders
  rw [Dict.filter_merge hdisjoint, entries_baseHeaders, List.filter_append]
  have hplain : (plainHeaders token).filter (fun header => isCookieName header.1) = [] := by
    rw [List.filter_eq_nil_iff]
    intro header hheader
    exact Bool.eq_false_iff.mp (not_isCookieName_plain header hheader)
  have htenant : (tenantHeader tenantId).filter (fun header => isCookieName header.1) =
      tenantHeader tenantId := by
    rw [List.filter_eq_self]
    intro header hheader
    obtain ⟨tenant, -, hpair⟩ := List.mem_map.mp hheader
    rw [← hpair]
    exact isCookieName_cookieHeader
  rw [hplain, htenant, List.nil_append]

theorem get?_cookie_merge :
    ((baseHeaders tenantId token).merge (extra.pop cookieHeader)).get? cookieHeader =
      (truthy tenantId).map tenantPair := by
  rw [Dict.get?_merge, Dict.get?_pop, if_pos rfl, Option.none_or]
  cases htenant : truthy tenantId with
  | none =>
      have hplain : cookieHeader ∉
          ["Content-Type".toList, "Accept".toList, "Authorization".toList] := by decide
      rw [Option.map_none, Dict.get?_eq_none, Dict.keys, entries_baseHeaders, tenantHeader, htenant]
      exact hplain
  | some tenant =>
      apply Dict.get?_eq_some.mpr
      rw [entries_baseHeaders, tenantHeader, htenant]
      exact List.mem_append_right _ (List.mem_singleton_self _)

/-- The merged header keeps the place of the one that was there. -/
theorem cookieHeaders_set_old {headers : Dict Text Text} (h : cookieHeader ∈ headers.keys)
    (value : Text) :
    cookieHeaders (headers.set cookieHeader value).entries =
      (cookieHeaders headers.entries).map fun header =>
        (header.1, if header.1 = cookieHeader then value else header.2) := by
  unfold cookieHeaders
  rw [Dict.entries_set_old h, List.filter_map]
  rfl

theorem cookiesOf_mergeCookie_some {tenant : Text} (htenant : truthy tenantId = some tenant)
    (callerCookie : Text) :
    cookiesOf (mergeCookie ((baseHeaders tenantId token).merge (extra.pop cookieHeader))
      callerCookie).entries =
      (cookiePairs callerCookie).filter isOther ++ cookiePairs (tenantPair tenant) ++
        spelledCookies extra := by
  have hget : ((baseHeaders tenantId token).merge (extra.pop cookieHeader)).get? cookieHeader =
      some (tenantPair tenant) := by
    rw [get?_cookie_merge, htenant, Option.map_some]
  have htruthy : truthy (some (tenantPair tenant)) = some (tenantPair tenant) :=
    truthy_eq_some.mpr ⟨rfl, List.append_ne_nil_of_right_ne_nil _ (List.cons_ne_nil _ _)⟩
  have hspelled : ∀ value, (cookieHeaders (extra.pop cookieHeader).entries).map (fun header =>
      (header.1, if header.1 = cookieHeader then value else header.2)) =
        cookieHeaders (extra.pop cookieHeader).entries := by
    intro value
    refine (List.map_congr_left ?_).trans (List.map_id _)
    intro header hheader
    have hne : header.1 ≠ cookieHeader :=
      of_decide_eq_true (List.mem_filter.mp (List.mem_filter.mp hheader).1).2
    rw [if_neg hne]
    rfl
  unfold mergeCookie
  dsimp only
  rw [hget, htruthy, Option.toList_some,
    if_neg (List.append_ne_nil_of_right_ne_nil _ (List.cons_ne_nil _ _)), cookiesOf,
    cookieHeaders_set_old (Dict.mem_keys_of_get? hget), cookieHeaders_merge, tenantHeader, htenant,
    List.map_append, hspelled, List.flatMap_append, Option.toList_some, List.map_singleton,
    List.map_singleton, List.flatMap_singleton, if_pos rfl, cookiePairs_join, List.flatMap_append,
    flatMap_keepsPart, List.flatMap_singleton]
  rfl

theorem cookiesOf_mergeCookie_none (htenant : truthy tenantId = none) (callerCookie : Text) :
    cookiesOf (mergeCookie ((baseHeaders tenantId token).merge (extra.pop cookieHeader))
      callerCookie).entries =
      spelledCookies extra ++ (cookiePairs callerCookie).filter isOther := by
  have hget : ((baseHeaders tenantId token).merge (extra.pop cookieHeader)).get? cookieHeader =
      none := by
    rw [get?_cookie_merge, htenant, Option.map_none]
  have hspelled : cookiesOf ((baseHeaders tenantId token).merge (extra.pop cookieHeader)).entries =
      spelledCookies extra := by
    rw [cookiesOf, cookieHeaders_merge, tenantHeader, htenant, Option.toList_none, List.map_nil,
      List.nil_append]
    rfl
  unfold mergeCookie
  dsimp only
  rw [hget, truthy_none, Option.toList_none, List.append_nil, ← flatMap_keepsPart]
  split
  · rename_i hnil
    rw [hspelled, hnil, List.flatMap_nil, List.append_nil]
  · rw [Dict.entries_set_new (Dict.get?_eq_none.mp hget), cookiesOf_append, hspelled,
      ← cookiePairs_join]
    exact congrArg _ (cookiesOf_singleton _)

theorem buildHeaders_eq (extraHeaders : Option (Dict Text Text)) :
    buildHeaders tenantId token extraHeaders =
      match truthy ((extraHeaders.getD Dict.empty).get? cookieHeader) with
      | some callerCookie => mergeCookie ((baseHeaders tenantId token).merge
          ((extraHeaders.getD Dict.empty).pop cookieHeader)) callerCookie
      | none => (baseHeaders tenantId token).merge
          ((extraHeaders.getD Dict.empty).pop cookieHeader) := by
  have hempty : (baseHeaders tenantId token).merge
      ((Dict.empty : Dict Text Text).pop cookieHeader) = baseHeaders tenantId token :=
    Dict.merge_empty _
  unfold buildHeaders
  cases extraHeaders with
  | none => exact hempty.symm
  | some extra =>
      dsimp only [Option.getD_some]
      split
      · rename_i hnil
        have hextra : extra = Dict.empty := Dict.eq_of_entries hnil
        rw [hextra]
        exact hempty.symm
      · rfl

/-- A `Cookie` that counts as false has no cookies. -/
theorem mergedCookies_of_falsy (h : truthy (extra.get? cookieHeader) = none) :
    mergedCookies extra = [] := by
  unfold mergedCookies
  cases hget : extra.get? cookieHeader with
  | none => rw [Option.getD_none, cookiePairs_nil, List.filter_nil]
  | some value =>
      rw [hget] at h
      have hnil : value = [] := by
        by_contra hne
        rw [truthy_eq_some.mpr ⟨rfl, hne⟩] at h
        cases h
      rw [Option.getD_some, hnil, cookiePairs_nil, List.filter_nil]

theorem mergedCookies_of_truthy {callerCookie : Text}
    (h : truthy (extra.get? cookieHeader) = some callerCookie) :
    mergedCookies extra = (cookiePairs callerCookie).filter isOther := by
  rw [mergedCookies, (truthy_eq_some.mp h).1, Option.getD_some]

/-- With a tenant its cookie comes between the merged ones and those in another spelling. -/
theorem cookiesOf_buildHeaders_some {tenant : Text} (htenant : truthy tenantId = some tenant)
    (extraHeaders : Option (Dict Text Text)) :
    cookiesOf (buildHeaders tenantId token extraHeaders).entries =
      mergedCookies (extraHeaders.getD Dict.empty) ++ cookiePairs (tenantPair tenant) ++
        spelledCookies (extraHeaders.getD Dict.empty) := by
  rw [buildHeaders_eq]
  cases hcaller : truthy ((extraHeaders.getD Dict.empty).get? cookieHeader) with
  | some callerCookie =>
      rw [mergedCookies_of_truthy hcaller]
      exact cookiesOf_mergeCookie_some htenant callerCookie
  | none =>
      rw [mergedCookies_of_falsy hcaller, List.nil_append]
      dsimp only
      rw [cookiesOf, cookieHeaders_merge, tenantHeader, htenant, List.flatMap_append,
        Option.toList_some, List.map_singleton, List.flatMap_singleton]
      rfl

/-- Without one, those in another spelling come first. -/
theorem cookiesOf_buildHeaders_none (htenant : truthy tenantId = none)
    (extraHeaders : Option (Dict Text Text)) :
    cookiesOf (buildHeaders tenantId token extraHeaders).entries =
      spelledCookies (extraHeaders.getD Dict.empty) ++
        mergedCookies (extraHeaders.getD Dict.empty) := by
  rw [buildHeaders_eq]
  cases hcaller : truthy ((extraHeaders.getD Dict.empty).get? cookieHeader) with
  | some callerCookie =>
      rw [mergedCookies_of_truthy hcaller]
      exact cookiesOf_mergeCookie_none htenant callerCookie
  | none =>
      rw [mergedCookies_of_falsy hcaller, List.append_nil]
      dsimp only
      rw [cookiesOf, cookieHeaders_merge, tenantHeader, htenant, Option.toList_none, List.map_nil,
        List.nil_append]
      rfl

end Build

/-! ## The tenant that is read -/

theorem cookiePairs_tenantPair {tenant : Text} (h : ';' ∉ tenant) :
    cookiePairs (tenantPair tenant) = [(selectedTenantCookieName, tenant.strip)] := by
  have hmem : ';' ∉ tenantPair tenant := by
    unfold tenantPair
    rw [List.mem_append, List.mem_cons]
    intro hmem
    obtain hname | hequals | htenant := hmem
    · exact absurd hname (by decide)
    · exact absurd hequals (by decide)
    · exact h htenant
  have hequals : '=' ∉ selectedTenantCookieName := by decide
  have hstrip : selectedTenantCookieName.strip ≠ [] := by decide
  have hpair : cookiePair (tenantPair tenant) = some (selectedTenantCookieName, tenant.strip) :=
    cookiePair_of_mem hequals hstrip
  rw [cookiePairs_of_not_mem hmem, hpair, Option.toList_some]

/-- The tenant's cookie is read up to its first semicolon. -/
theorem cookiePairs_tenantPair_head (tenant : Text) :
    ∃ value more, cookiePairs (tenantPair tenant) = (selectedTenantCookieName, value) :: more ∧
      (value = tenant ↔ ';' ∉ tenant ∧ tenant.strip = tenant) := by
  by_cases hmem : ';' ∈ tenant
  · obtain ⟨before, after, htenant, hbefore⟩ := List.eq_append_cons_of_mem hmem
    have hsplit : tenantPair tenant = tenantPair before ++ ';' :: after := by
      rw [tenantPair, htenant, tenantPair, List.append_assoc, List.cons_append]
    refine ⟨Text.strip before, cookiePairs after, ?_, ?_⟩
    · rw [hsplit, cookiePairs_append, cookiePairs_tenantPair hbefore, List.singleton_append]
    · refine iff_of_false ?_ fun h => h.1 hmem
      intro hvalue
      rw [← hvalue] at hmem
      exact hbefore ((Text.stripWhere_isInfix before).subset hmem)
  · refine ⟨tenant.strip, [], cookiePairs_tenantPair hmem, ?_⟩
    exact ⟨fun h => ⟨hmem, h⟩, fun h => h.2⟩

theorem find?_filter_isOther (cookies : List (Text × Text)) :
    (cookies.filter isOther).find? (fun pair => pair.1 = selectedTenantCookieName) = none := by
  rw [List.find?_eq_none]
  intro pair hpair hname
  exact of_decide_eq_true (List.mem_filter.mp hpair).2 (of_decide_eq_true hname)

theorem find?_tenant_eq_none {cookies : List (Text × Text)} :
    cookies.find? (fun pair => pair.1 = selectedTenantCookieName) = none ↔
      ∀ pair ∈ cookies, isOther pair = true := by
  rw [List.find?_eq_none]
  constructor
  · intro h pair hpair
    exact decide_eq_true fun hname => h pair hpair (decide_eq_true hname)
  · intro h pair hpair hname
    exact of_decide_eq_true (h pair hpair) (of_decide_eq_true hname)

section Read

variable {tenantId : Option Text} {token : Text} {extraHeaders : Option (Dict Text Text)}

theorem readCookie_some_iff {tenant : Text} (htenant : truthy tenantId = some tenant) :
    readCookie (buildHeaders tenantId token extraHeaders).entries selectedTenantCookieName =
      some tenant ↔ ';' ∉ tenant ∧ tenant.strip = tenant := by
  obtain ⟨value, more, hpairs, hvalue⟩ := cookiePairs_tenantPair_head tenant
  have hread : readCookie (buildHeaders tenantId token extraHeaders).entries
      selectedTenantCookieName = some value := by
    rw [readCookie, cookiesOf_buildHeaders_some htenant, mergedCookies, List.append_assoc,
      List.find?_append, find?_filter_isOther, Option.none_or, hpairs, List.cons_append,
      List.find?_cons_of_pos (by simp), Option.map_some]
  rw [hread, Option.some.injEq, hvalue]

theorem readCookie_none_iff (htenant : truthy tenantId = none) :
    readCookie (buildHeaders tenantId token extraHeaders).entries selectedTenantCookieName = none ↔
      ∀ pair ∈ spelledCookies (extraHeaders.getD Dict.empty), isOther pair = true := by
  rw [readCookie, cookiesOf_buildHeaders_none htenant, mergedCookies, List.find?_append,
    find?_filter_isOther, Option.or_none, Option.map_eq_none_iff, find?_tenant_eq_none]

theorem spelledCookies_iff {extra : Dict Text Text} :
    (∀ pair ∈ spelledCookies extra, isOther pair = true) ↔
      ∀ header ∈ extra.entries, header.1 ≠ cookieHeader → isCookieName header.1 = true →
        ∀ pair ∈ cookiePairs header.2, isOther pair = true := by
  constructor
  · intro h header hheader hne hname pair hpair
    have hpop : header ∈ (extra.pop cookieHeader).entries :=
      List.mem_filter.mpr ⟨hheader, decide_eq_true hne⟩
    exact h pair (List.mem_flatMap.mpr ⟨header, List.mem_filter.mpr ⟨hpop, hname⟩, hpair⟩)
  · intro h pair hpair
    obtain ⟨header, hheader, hmem⟩ := List.mem_flatMap.mp hpair
    obtain ⟨hpop, hname⟩ := List.mem_filter.mp hheader
    obtain ⟨hextra, hne⟩ := List.mem_filter.mp hpop
    exact h header hextra (of_decide_eq_true hne) hname pair hmem

end Read

/-! ## The caller's other cookies -/

section Others

variable {tenantId : Option Text} {token : Text} {extra : Dict Text Text}

/-- The caller's headers, the `Cookie` first. -/
theorem callers_perm (extra : Dict Text Text) :
    (extra.entries.filter (fun header => header.1 = cookieHeader) ++
      (extra.pop cookieHeader).entries).Perm extra.entries := by
  have h := List.filter_append_perm (fun header => header.1 = cookieHeader) extra.entries
  simpa only [Dict.pop, ne_eq, decide_not] using h

theorem cookiesOf_cookieHeader (extra : Dict Text Text) :
    (cookiesOf (extra.entries.filter fun header => header.1 = cookieHeader)).filter isOther =
      mergedCookies extra := by
  rw [Dict.filter_key, mergedCookies]
  cases extra.get? cookieHeader with
  | none => rw [Option.getD_none, cookiePairs_nil]; rfl
  | some value =>
      rw [Option.map_some, Option.toList_some, cookiesOf_singleton, Option.getD_some]

theorem filter_mergedCookies : (mergedCookies extra).filter isOther = mergedCookies extra := by
  unfold mergedCookies
  rw [List.filter_filter]
  congr 1
  funext pair
  exact Bool.and_self _

end Others

/-! ## The result -/

/-- The backend reads the resolved tenant, and the caller's other cookies, exactly when the tenant
is one that a cookie can carry and no tenant's cookie hides in another spelling of the header. -/
theorem buildHeaders_iff (tenantId : Option Text) (token : Text)
    (extraHeaders : Option (Dict Text Text)) :
    Faithful tenantId (callerHeaders extraHeaders)
        (buildHeaders tenantId token extraHeaders).entries ↔
      Unspoofed tenantId (callerHeaders extraHeaders) := by
  have hperm := callers_perm (extraHeaders.getD Dict.empty)
  have hown := cookiesOf_cookieHeader (extraHeaders.getD Dict.empty)
  constructor
  · intro h
    constructor
    · intro tenant htenant
      have hread := h.tenant
      rw [htenant] at hread
      exact (readCookie_some_iff htenant).mp hread
    · intro htenant
      have hread := h.tenant
      rw [htenant] at hread
      exact spelledCookies_iff.mp ((readCookie_none_iff htenant).mp hread)
  · intro h
    cases htenant : truthy tenantId with
    | some tenant =>
        obtain ⟨hsemicolon, hstrip⟩ := h.carried tenant htenant
        have hread : readCookie (buildHeaders tenantId token extraHeaders).entries
            selectedTenantCookieName = some tenant :=
          (readCookie_some_iff htenant).mpr ⟨hsemicolon, hstrip⟩
        refine ⟨hread.trans htenant.symm, _, hperm, ?_⟩
        rw [cookiesOf_buildHeaders_some htenant, cookiePairs_tenantPair hsemicolon,
          cookiesOf_append, List.filter_append, List.filter_append, List.filter_append, hown,
          filter_mergedCookies]
        congr 1
        exact List.append_nil _
    | none =>
        have hread : readCookie (buildHeaders tenantId token extraHeaders).entries
            selectedTenantCookieName = none :=
          (readCookie_none_iff htenant).mpr (spelledCookies_iff.mpr (h.absent htenant))
        refine ⟨hread.trans htenant.symm, _, List.perm_append_comm.trans hperm, ?_⟩
        rw [cookiesOf_buildHeaders_none htenant, cookiesOf_append, List.filter_append,
          List.filter_append, hown, filter_mergedCookies]
        rfl

/-- A caller's header with a small `c`. -/
def smuggled : Dict Text Text where
  entries := [("cookie".toList, "m8flow_selected_tenant=evil".toList)]
  keys_nodup := List.nodup_singleton _

/-- No tenant is resolved, and the backend reads the caller's. -/
theorem smuggled_tenant_read :
    readCookie (buildHeaders none "t".toList (some smuggled)).entries selectedTenantCookieName =
      some "evil".toList := by
  decide +kernel

end M8flow.Mcp
