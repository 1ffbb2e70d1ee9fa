import FireCrow.Middleware.Cloudflare

/-!
# Session cookies and the cross-site gate

Three readers take a request's cookies apart: the gate and the extractor of an
authenticated user read the first `Cookie` line as it stands, the cookie jar of
the refresh endpoint reads every line.

The cookie parser of the jar is a dependency, a parameter here.
-/

namespace FireCrow.Middleware.Csrf

open FireCrow.Library

/-! ## The gate -/

def refreshName (cookieName : Text) : Text := cookieName ++ ("_refresh" : Text)

def legacyRefresh : Text := "refresh_token"

/-- The names of the cookies that hold a session. -/
def sessionNames (cookieName : Text) : List Text :=
  [cookieName, refreshName cookieName, legacyRefresh]

/-- The first `Cookie` line, if it is text. -/
def cookieHeader (headers : HeaderMap) : Option Text :=
  (headers.get "cookie").bind HeaderValue.toStr

def carriesAuthCookies (headers : HeaderMap) (cookieName : Text) : Bool :=
  match cookieHeader headers with
  | none => false
  | some header =>
      let access := cookieName ++ ['=']
      let refresh := refreshName cookieName ++ ['=']
      let legacy := legacyRefresh ++ ['=']
      (header.splitOn ';').any fun pair =>
        let pair := Text.trim pair
        Text.startsWith pair access || Text.startsWith pair refresh ||
          Text.startsWith pair legacy

inductive Method where
  | get
  | head
  | options
  | post
  | put
  | patch
  | delete
  | connect
  | trace
  | extension (name : Text)
deriving DecidableEq

/-- Methods that pass the gate unchanged. -/
def Method.readOnly : Method → Bool
  | .get | .head | .options => true
  | _ => false

inductive StatusCode where
  | forbidden
deriving DecidableEq

/-- The gate; `ok` where the request goes on. -/
def csrfMiddleware (corsOrigins : List Text) (cookieName : Text)
    (method : Method) (headers : HeaderMap) : Except StatusCode Unit :=
  if method.readOnly then .ok ()
  else
    match (headers.get "origin").bind HeaderValue.toStr with
    | some origin =>
        let origin := origin.rdropWhile (· == '/')
        if corsOrigins.contains origin then .ok () else .error .forbidden
    | none =>
        if carriesAuthCookies headers cookieName then .error .forbidden
        else .ok ()

/-! ## The readers of a session -/

inductive Source where
  | authorization
  | body
  | cookie
deriving DecidableEq

/-- The token of `AuthenticatedUser`, and where it comes from. -/
def authenticatedToken (cookieName : Text) (headers : HeaderMap) :
    Option (Source × Text) :=
  let bearer := ((headers.get "authorization").bind HeaderValue.toStr).bind
    fun header => header.stripPrefix "Bearer "
  let cookie := (cookieHeader headers).bind fun header =>
    (header.splitOn ';').findSome? fun pair =>
      (Text.splitOnce '=' (Text.trim pair)).bind fun parts =>
        if parts.1 = cookieName then some parts.2 else none
  (bearer.map fun token => (.authorization, token)).or
    (cookie.map fun token => (.cookie, token))

/-- What the cookie parser makes of one part of a line: a name and a value. -/
abbrev CookieParser := Text → Option (Text × Text)

/-- The parts of every `Cookie` line that is text. -/
def cookieParts (headers : HeaderMap) : List Text :=
  ((headers.getAll "cookie").filterMap HeaderValue.toStr).flatMap
    fun line => line.splitOn ';'

/-- `jar.get`: of the cookies with one name the last counts. -/
def jarGet (parse : CookieParser) (headers : HeaderMap) (name : Text) :
    Option Text :=
  (((cookieParts headers).filterMap parse).reverse.find? fun cookie =>
    cookie.1 = name).map Prod.snd

/-- The token that `refresh_token` consumes, given the text under
`refresh_token` in the body, and where it comes from. -/
def refreshToken (parse : CookieParser) (cookieName : Text)
    (payload : Option Text) (headers : HeaderMap) : Option (Source × Text) :=
  (payload.map fun token => (.body, token)).or
    (((jarGet parse headers (refreshName cookieName)).or
      (jarGet parse headers legacyRefresh)).map fun token => (.cookie, token))

/-- One of the two takes a token from the cookies. -/
def TakesCookie (parse : CookieParser) (cookieName : Text)
    (headers : HeaderMap) : Prop :=
  (∃ token, authenticatedToken cookieName headers = some (.cookie, token)) ∨
    ∃ payload token, refreshToken parse cookieName payload headers =
      some (.cookie, token)

/-- A request from whose cookies a token would be taken is refused. -/
def GateSees (parse : CookieParser) (corsOrigins : List Text)
    (cookieName : Text) (method : Method) (headers : HeaderMap) : Prop :=
  TakesCookie parse cookieName headers →
    carriesAuthCookies headers cookieName = true ∧
      csrfMiddleware corsOrigins cookieName method headers = .error .forbidden

/-! ## What the readers find -/

section Readers

variable {parse : CookieParser} {cookieName : Text} {headers : HeaderMap}

/-- The first line is text and has a part that opens with a session name and
an equals sign. -/
def OpensFirstLine (cookieName : Text) (headers : HeaderMap) : Prop :=
  ∃ header, cookieHeader headers = some header ∧
    ∃ part ∈ header.splitOn ';', ∃ name ∈ sessionNames cookieName,
      ∃ value, Text.trim part = name ++ '=' :: value

theorem startsWith_iff (text name : Text) :
    text.startsWith (name ++ ['=']) = true ↔
      ∃ value, text = name ++ '=' :: value := by
  rw [Text.startsWith, List.isPrefixOf_iff_prefix]
  constructor
  · rintro ⟨value, same⟩
    exact ⟨value, by rw [← same, List.append_assoc, List.singleton_append]⟩
  · rintro ⟨value, same⟩
    exact ⟨value, by rw [same, List.append_assoc, List.singleton_append]⟩

theorem carriesAuthCookies_iff :
    carriesAuthCookies headers cookieName = true ↔
      OpensFirstLine cookieName headers := by
  rw [carriesAuthCookies, OpensFirstLine]
  cases cookieHeader headers with
  | none => simp
  | some header =>
    simp only [List.any_eq_true, Bool.or_eq_true, startsWith_iff, sessionNames,
      Option.some.injEq, exists_eq_left', List.mem_cons, List.not_mem_nil,
      or_false, exists_eq_or_imp, exists_eq_left, or_assoc]

/-- The gate is as wide as the extractor. -/
theorem authenticatedToken_opens {token : Text}
    (takes : authenticatedToken cookieName headers = some (.cookie, token)) :
    OpensFirstLine cookieName headers := by
  simp only [authenticatedToken, Option.or_eq_some_iff, Option.map_eq_some_iff,
    Prod.mk.injEq, reduceCtorEq, false_and, and_false, exists_false, false_or,
    Option.bind_eq_some_iff, true_and, exists_eq_right] at takes
  rcases takes with ⟨_, header, first, found⟩
  rcases List.exists_of_findSome?_eq_some found with ⟨part, member, reads⟩
  rcases Option.bind_eq_some_iff.mp reads with ⟨⟨key, value⟩, split, chosen⟩
  split at chosen
  case isTrue same =>
    refine ⟨header, first, part, member, cookieName, List.mem_cons_self, value, ?_⟩
    rw [(Text.splitOnce_eq_some.mp split).1, show key = cookieName from same]
  case isFalse => cases chosen

theorem jarGet_isSome (name : Text) :
    (jarGet parse headers name).isSome = true ↔
      ∃ part ∈ cookieParts headers, ∃ value, parse part = some (name, value) := by
  rw [jarGet, Option.isSome_map, List.find?_isSome]
  simp only [List.mem_reverse, List.mem_filterMap, decide_eq_true_eq]
  constructor
  · rintro ⟨⟨key, value⟩, ⟨part, member, reads⟩, same⟩
    exact ⟨part, member, value, same ▸ reads⟩
  · rintro ⟨part, member, value, reads⟩
    exact ⟨(name, value), ⟨part, member, reads⟩, rfl⟩

/-- The jar reads a part of some line as a refresh cookie. -/
def RefreshInJar (parse : CookieParser) (cookieName : Text)
    (headers : HeaderMap) : Prop :=
  ∃ part ∈ cookieParts headers, ∃ name value, parse part = some (name, value) ∧
    (name = refreshName cookieName ∨ name = legacyRefresh)

theorem refreshToken_takes :
    (∃ payload token, refreshToken parse cookieName payload headers =
      some (.cookie, token)) ↔ RefreshInJar parse cookieName headers := by
  have found : (((jarGet parse headers (refreshName cookieName)).or
      (jarGet parse headers legacyRefresh)).isSome = true) ↔
        RefreshInJar parse cookieName headers := by
    rw [Option.isSome_or, Bool.or_eq_true, jarGet_isSome, jarGet_isSome]
    constructor
    · rintro (⟨part, member, value, reads⟩ | ⟨part, member, value, reads⟩)
      · exact ⟨part, member, _, value, reads, .inl rfl⟩
      · exact ⟨part, member, _, value, reads, .inr rfl⟩
    · rintro ⟨part, member, name, value, reads, same | same⟩
      · exact .inl ⟨part, member, value, same ▸ reads⟩
      · exact .inr ⟨part, member, value, same ▸ reads⟩
  rw [← found, Option.isSome_iff_exists]
  constructor
  · rintro ⟨payload, token, takes⟩
    cases payload with
    | some given => cases takes
    | none =>
      rcases Option.map_eq_some_iff.mp takes with ⟨value, jar, _⟩
      exact ⟨value, jar⟩
  · rintro ⟨token, jar⟩
    refine ⟨none, token, ?_⟩
    rw [refreshToken, jar]
    rfl

end Readers

/-! ## Where the gate is as wide as the readers -/

section Gate

variable {method : Method} {headers : HeaderMap}

theorem csrfMiddleware_without_origin (changes : method.readOnly = false)
    (noOrigin : headers.get "origin" = none) (corsOrigins : List Text)
    (cookieName : Text) :
    csrfMiddleware corsOrigins cookieName method headers = .error .forbidden ↔
      carriesAuthCookies headers cookieName = true := by
  rw [csrfMiddleware, changes, noOrigin]
  cases carriesAuthCookies headers cookieName <;> simp

theorem gateSees_rules (parse : CookieParser) (corsOrigins : List Text)
    (cookieName : Text) (changes : method.readOnly = false)
    (noOrigin : headers.get "origin" = none) :
    GateSees parse corsOrigins cookieName method headers ↔
      (∀ part ∈ cookieParts headers, ∀ name value,
        parse part = some (name, value) →
          name ≠ refreshName cookieName ∧ name ≠ legacyRefresh) ∨
        OpensFirstLine cookieName headers := by
  have absent : ¬ RefreshInJar parse cookieName headers ↔
      ∀ part ∈ cookieParts headers, ∀ name value,
        parse part = some (name, value) →
          name ≠ refreshName cookieName ∧ name ≠ legacyRefresh := by
    simp only [RefreshInJar, not_exists, not_and, not_or, Ne]
  rw [← absent, GateSees, csrfMiddleware_without_origin changes noOrigin,
    and_self, carriesAuthCookies_iff, TakesCookie, refreshToken_takes]
  constructor
  · intro sees
    by_cases inJar : RefreshInJar parse cookieName headers
    · exact .inr (sees (.inr inJar))
    · exact .inl inJar
  · rintro (none | opens) (⟨token, takes⟩ | inJar)
    · exact authenticatedToken_opens takes
    · exact absurd inJar none
    · exact opens
    · exact opens

end Gate

/-- The gate sees every session cookie exactly where the jar reads no refresh
cookie from any line, or a part of the first line opens with a session name. -/
theorem gate_sees_iff (parse : CookieParser) (corsOrigins : List Text)
    (cookieName : Text) {method : Method} {headers : HeaderMap}
    (changes : method.readOnly = false)
    (noOrigin : headers.get "origin" = none) :
    GateSees parse corsOrigins cookieName method headers ↔
      (∀ part ∈ cookieParts headers, ∀ name value,
        parse part = some (name, value) →
          name ≠ refreshName cookieName ∧ name ≠ legacyRefresh) ∨
        OpensFirstLine cookieName headers :=
  gateSees_rules parse corsOrigins cookieName changes noOrigin

/-! ## A cookie on a second line -/

/-- A parser that trims names and values. -/
def trimmedCookie : CookieParser := fun part =>
  (Text.splitOnce '=' part).bind fun parts =>
    if parts.1.trim = [] then none else some (parts.1.trim, parts.2.trim)

/-- A refresh cookie behind another cookie, on a line of its own. -/
def twoLines : HeaderMap :=
  [("cookie", HeaderValue.ofText "theme=dark"),
    ("cookie", HeaderValue.ofText "fc_access_token_refresh=t")]

theorem twoLines_sees_iff :
    GateSees trimmedCookie [] ("fc_access_token" : Text) .post twoLines ↔
      (∀ part ∈ cookieParts twoLines, ∀ name value,
        trimmedCookie part = some (name, value) →
          name ≠ refreshName ("fc_access_token" : Text) ∧
            name ≠ legacyRefresh) ∨
        OpensFirstLine ("fc_access_token" : Text) twoLines :=
  gate_sees_iff trimmedCookie [] _ (by decide) (by decide)

/-- The refresh endpoint takes the token and the gate lets the request
through. -/
theorem two_lines_unseen :
    refreshToken trimmedCookie ("fc_access_token" : Text) none twoLines =
        some (.cookie, ("t" : Text)) ∧
      csrfMiddleware [] ("fc_access_token" : Text) .post twoLines = .ok () ∧
      ¬ GateSees trimmedCookie [] ("fc_access_token" : Text) .post twoLines := by
  have takes : refreshToken trimmedCookie ("fc_access_token" : Text) none twoLines =
      some (.cookie, ("t" : Text)) := by decide +kernel
  have unseen : carriesAuthCookies twoLines ("fc_access_token" : Text) = false := by
    decide +kernel
  refine ⟨takes, by decide +kernel, fun sees => ?_⟩
  have seen := (sees (.inr ⟨none, _, takes⟩)).1
  rw [unseen] at seen
  cases seen

end FireCrow.Middleware.Csrf
