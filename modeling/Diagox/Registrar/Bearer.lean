import Diagox.Lib.Lists
import Diagox.Registrar.Auth
import Mathlib.Data.Rat.Defs

/-!
# The bearer store over HTTP

`UserAuthStoreBearerHTTP` of `auth_bearer.go`. The store asks a provider about a token and reads two fields of the
JSON document it gets. The HTTP client and the decoding are code of other modules: `Provider` says how each call of
them ends.
-/

namespace Registrar

open Strings

/-! ### Fields of a document -/

/-- What `json.Unmarshal` makes of a document. An object is a map from its keys. -/
inductive Json where
  | null
  | bool (b : Bool)
  | number (value : ℚ)
  | string (s : String)
  | array (elements : List Json)
  | object (fields : String → Option Json)

def lookupParts : Json → List String → Except String (Option Json)
  | v, [] => .ok (some v)
  | v, part :: parts =>
      if part = "" then .error "empty path segment"
      else match v with
        | .object fields => match fields part with
          | none => .ok none
          | some next => lookupParts next parts
        | _ => .ok none

/-- The value at a path, if it exists. -/
def jsonPathLookup (v : Json) (path : String) : Except String (Option Json) :=
  if trimSpace path = "" ∨ trimSpace path = "." then .ok (some v)
  else if hasPrefix (trimSpace path) "." = false then .error "path must start with dot"
  else lookupParts v (split (trimPrefix (trimSpace path) ".") '.')

/-! ### The headers of a request -/

/-- `http.Header`. -/
abbrev HTTPHeader := String → Option (List String)

/-- `validHeaderFieldByte`. -/
def validHeaderFieldChar (c : Char) : Bool := c.isAlphanum || "!#$%&'*+-.^_`|~".toList.contains c

/-- The first letter and those after a hyphen are upper case, the others lower case. -/
def canonicalChars : (upper : Bool) → List Char → List Char
  | _, [] => []
  | upper, c :: cs => (if upper then c.toUpper else c.toLower) :: canonicalChars (c = '-') cs

/-- `textproto.CanonicalMIMEHeaderKey`. -/
def canonicalMIMEHeaderKey (name : String) : String :=
  if name.toList.all validHeaderFieldChar then .ofList (canonicalChars true name.toList) else name

/-- `Header.Set`. -/
def HTTPHeader.set (header : HTTPHeader) (name value : String) : HTTPHeader := fun key =>
  if key = canonicalMIMEHeaderKey name then some [value] else header key

def bearerAuthProviderHeader (header : String) : Except String (String × String) :=
  match cut header ':' with
  | none => .error "expected header in name: value format"
  | some (name, value) =>
      if trimSpace name = "" then .error "header name is empty" else .ok (trimSpace name, trimSpace value)

def isSensitiveHeader (name : String) : Bool :=
  toLower name = "authorization" || toLower name = "proxy-authorization" || toLower name = "cookie" ||
    toLower name = "set-cookie" || contains (toLower name) "token" || contains (toLower name) "secret" ||
    contains (toLower name) "key"

def utf8Bytes (s : String) : List UInt8 := s.toUTF8.data.toList

/-- A slice of a string may end inside of a character, so the result is given by its bytes. -/
def maskSecret (secret : String) : List UInt8 :=
  if secret = "" then []
  else if (utf8Bytes secret).length ≤ 8 then utf8Bytes "***"
  else (utf8Bytes secret).take 4 ++ utf8Bytes "***" ++ (utf8Bytes secret).drop ((utf8Bytes secret).length - 4)

def redactedHTTPHeaders (headers : HTTPHeader) : String → Option (List (List UInt8)) := fun name =>
  (headers name).map fun values =>
    values.map fun value => if isSensitiveHeader name then maskSecret value else utf8Bytes value

/-! ### The request to the provider -/

inductive Sentinel where
  | errBearerAuthInvalid
  | errBearerAuthUnavailable
  deriving DecidableEq, Repr

/-- An error, with what `errors.Is` finds in it. -/
structure AuthError where
  wraps : Option Sentinel := none
  text : String
  deriving DecidableEq, Repr

def bearerAuthInvalid (text : String) : AuthError where
  wraps := some .errBearerAuthInvalid
  text := "bearer auth invalid: " ++ text

structure SIPRegisterBearerAuthConfig where
  url : String := ""
  identityField : String := ""
  activeField : String := ""
  header : String := ""
  deriving DecidableEq, Repr

structure ProviderResponse where
  statusCode : Int
  header : HTTPHeader := fun _ => none
  /-- `io.ReadAll` of the body. -/
  body : Except String (List UInt8)

structure Provider where
  /-- `http.NewRequestWithContext`, of which the URL is read again. -/
  newRequest : String → Except String String
  /-- `Do` of the HTTP client. -/
  do_ : (url : String) → HTTPHeader → Except String ProviderResponse
  unmarshal : List UInt8 → Except String Json

inductive LogEntry where
  | request (method url : String) (headers : String → Option (List (List UInt8))) (user sipMethod : String)
  | response (status : Int) (headers : String → Option (List (List UInt8))) (body : List UInt8)

section Store

variable (conf : SIPRegisterBearerAuthConfig) (ext : Provider) (auth : UserBearerAuth)

def requestHeader : Except String HTTPHeader :=
  let accept := HTTPHeader.set (fun _ => none) "Accept" "application/json"
  let header := accept.set "Authorization" ("Bearer " ++ auth.token)
  if conf.header ≠ "" then match bearerAuthProviderHeader conf.header with
    | .error err => .error err
    | .ok (name, value) => .ok (header.set name value)
  else .ok header

def checkActive (body : Json) : Except AuthError Unit :=
  if trimSpace conf.activeField = "" then .ok ()
  else match jsonPathLookup body (trimSpace conf.activeField) with
    | .error err => .error (bearerAuthInvalid ("active field: " ++ err))
    | .ok none => .ok ()
    | .ok (some (.bool true)) => .ok ()
    | .ok (some _) => .error (bearerAuthInvalid "inactive token")

/-- The path of the identity, with its default. -/
def identityPath : String := if trimSpace conf.identityField = "" then ".sub" else trimSpace conf.identityField

def checkIdentity (body : Json) : Except AuthError Unit :=
  match jsonPathLookup body (identityPath conf) with
  | .error err => .error (bearerAuthInvalid ("identity field: " ++ err))
  | .ok none => .error (bearerAuthInvalid "identity field missing")
  | .ok (some (.string identity)) =>
      if identity = auth.user then .ok () else .error (bearerAuthInvalid "identity mismatch")
  | .ok (some _) => .error (bearerAuthInvalid "identity field is not string")

/-- What is read from the response. -/
def checkResponse (statusCode : Int) (body : List UInt8) : Except AuthError Unit :=
  if statusCode ≥ 500 then .error { text := "provider status " ++ toString statusCode }
  else if statusCode < 200 ∨ statusCode > 299 then
    .error (bearerAuthInvalid ("provider status " ++ toString statusCode))
  else match ext.unmarshal body with
    | .error err => .error { text := "decode response: " ++ err }
    | .ok body => do
        checkActive conf body
        checkIdentity conf auth body

def userAuthenticateBearer : List LogEntry × Except AuthError Unit :=
  if conf.url = "" then ([], .error ⟨some .errBearerAuthUnavailable, "bearer auth unavailable"⟩)
  else match ext.newRequest conf.url with
    | .error err => ([], .error { text := "create request: " ++ err })
    | .ok url => match requestHeader conf auth with
      | .error err => ([], .error { text := "provider header: " ++ err })
      | .ok header =>
          let sipMethod := if auth.method = "" then "REGISTER" else auth.method
          let request := LogEntry.request "GET" url (redactedHTTPHeaders header) auth.user sipMethod
          match ext.do_ url header with
          | .error err => ([request], .error { text := "provider request: " ++ err })
          | .ok resp => match resp.body with
            | .error err => ([request], .error { text := "read response: " ++ err })
            | .ok body =>
                ([request, .response resp.statusCode (redactedHTTPHeaders resp.header) body],
                  checkResponse conf ext auth resp.statusCode body)

end Store

/-! ### What a path leads to -/

inductive Found where
  | value (v : Json)
  | missing
  | malformed

def Json.field : Json → String → Option Json
  | .object fields, key => fields key
  | _, _ => none

/-- Nothing is left of a path, or its next key. -/
def AtKey (rest : List Char) : Prop := rest = [] ∨ ∃ tail, rest = '.' :: tail

/-- A path with a dot in front of each key leads from one object to the next. -/
inductive Leads : Json → List Char → Found → Prop where
  | arrived {v : Json} : Leads v [] (.value v)
  | emptyKey {v : Json} {rest : List Char} (hrest : AtKey rest) : Leads v ('.' :: rest) .malformed
  | absent {v : Json} {key rest : List Char} (hkey : key ≠ []) (hdot : '.' ∉ key) (hrest : AtKey rest)
      (hfield : v.field (.ofList key) = none) : Leads v ('.' :: (key ++ rest)) .missing
  | step {v next : Json} {key rest : List Char} {r : Found} (hkey : key ≠ []) (hdot : '.' ∉ key) (hrest : AtKey rest)
      (hfield : v.field (.ofList key) = some next) (hnext : Leads next rest r) : Leads v ('.' :: (key ++ rest)) r

/-- The lookup of a path: a dot is the root, and a path without a dot in front is none. -/
def LooksUp (v : Json) (path : String) (r : Found) : Prop :=
  if path = "." then r = .value v
  else if hasPrefix path "." = true then Leads v path.toList r
  else r = .malformed

/-- What is said of a lookup. -/
def found : Except String (Option Json) → Found
  | .error _ => .malformed
  | .ok none => .missing
  | .ok (some v) => .value v

section Lookup

variable {v : Json} {key key' rest rest' : List Char} {r : Found}

theorem takeWhile_key (hdot : '.' ∉ key) (hrest : AtKey rest) : (key ++ rest).takeWhile (· != '.') = key := by
  have hkey : ∀ c ∈ key, (c != '.') = true := by
    intro c hc
    rw [bne_iff_ne]
    rintro rfl
    exact hdot hc
  rw [List.takeWhile_append_of_pos hkey]
  obtain rfl | ⟨tail, rfl⟩ := hrest
  · exact List.append_nil key
  · exact List.append_nil key

theorem key_unique (hdot : '.' ∉ key) (hrest : AtKey rest) (hdot' : '.' ∉ key') (hrest' : AtKey rest')
    (h : key ++ rest = key' ++ rest') : key' = key ∧ rest' = rest := by
  have hkey : key' = key := by rw [← takeWhile_key hdot hrest, h, takeWhile_key hdot' hrest']
  subst hkey
  exact ⟨rfl, (List.append_cancel_left h).symm⟩

theorem leads_nil_iff : Leads v [] r ↔ r = .value v := by
  constructor
  · rintro ⟨⟩
    rfl
  · rintro rfl
    exact .arrived

theorem leads_emptyKey_iff (hrest : AtKey rest) : Leads v ('.' :: rest) r ↔ r = .malformed := by
  constructor
  · intro h
    generalize hpath : '.' :: rest = path at h
    cases h with
    | arrived => cases hpath
    | emptyKey => rfl
    | absent hkey hdot hrest' =>
        obtain ⟨rfl, -⟩ := key_unique List.not_mem_nil hrest hdot hrest' (List.cons.inj hpath).2
        exact absurd rfl hkey
    | step hkey hdot hrest' =>
        obtain ⟨rfl, -⟩ := key_unique List.not_mem_nil hrest hdot hrest' (List.cons.inj hpath).2
        exact absurd rfl hkey
  · rintro rfl
    exact .emptyKey hrest

theorem leads_key_iff (hkey : key ≠ []) (hdot : '.' ∉ key) (hrest : AtKey rest) :
    Leads v ('.' :: (key ++ rest)) r ↔
      v.field (.ofList key) = none ∧ r = .missing ∨
        ∃ next, v.field (.ofList key) = some next ∧ Leads next rest r := by
  constructor
  · intro h
    generalize hpath : '.' :: (key ++ rest) = path at h
    cases h with
    | arrived => cases hpath
    | emptyKey hrest' =>
        obtain ⟨rfl, -⟩ := key_unique List.not_mem_nil hrest' hdot hrest (List.cons.inj hpath).2.symm
        exact absurd rfl hkey
    | absent hkey' hdot' hrest' hfield =>
        obtain ⟨rfl, rfl⟩ := key_unique hdot hrest hdot' hrest' (List.cons.inj hpath).2
        exact .inl ⟨hfield, rfl⟩
    | step hkey' hdot' hrest' hfield hnext =>
        obtain ⟨rfl, rfl⟩ := key_unique hdot hrest hdot' hrest' (List.cons.inj hpath).2
        exact .inr ⟨_, hfield, hnext⟩
  · rintro (⟨hfield, rfl⟩ | ⟨next, hfield, hnext⟩)
    · exact .absent hkey hdot hrest hfield
    · exact .step hkey hdot hrest hfield hnext

theorem atKey_flatMap (parts : List (List Char)) : AtKey (parts.flatMap ('.' :: ·)) := by
  cases parts with
  | nil => exact .inl rfl
  | cons part parts => exact .inr ⟨_, rfl⟩

theorem lookupParts_cons (v : Json) {part : String} (hpart : part ≠ "") (parts : List String) :
    lookupParts v (part :: parts) = (v.field part).elim (.ok none) (lookupParts · parts) := by
  cases v with
  | object fields =>
      rw [lookupParts, if_neg hpart]
      show _ = (fields part).elim (.ok none) (lookupParts · parts)
      cases fields part <;> rfl
  | _ => simp [lookupParts, hpart, Json.field]

/-- The loop over the parts finds what the path leads to. -/
theorem leads_iff {parts : List (List Char)} (hparts : ∀ part ∈ parts, '.' ∉ part) :
    Leads v (parts.flatMap ('.' :: ·)) r ↔ r = found (lookupParts v (parts.map .ofList)) := by
  induction parts generalizing v with
  | nil => exact leads_nil_iff
  | cons part parts ih =>
      have hrest := atKey_flatMap parts
      have ih := fun v => ih (v := v) fun part hpart => hparts part (List.mem_cons_of_mem _ hpart)
      rw [List.flatMap_cons, List.cons_append, List.map_cons]
      obtain rfl | hkey := eq_or_ne part []
      · exact leads_emptyKey_iff hrest
      · have hpart : String.ofList part ≠ "" := by
          intro h
          rw [← String.toList_inj, String.toList_ofList] at h
          exact hkey h
        rw [leads_key_iff hkey (hparts part List.mem_cons_self) hrest, lookupParts_cons v hpart]
        cases v.field (.ofList part) with
        | none => simp [found]
        | some next => simp [ih]

theorem looksUp_iff {path : String} (hpath : trimSpace path = path) (hblank : path ≠ "") :
    LooksUp v path r ↔ r = found (jsonPathLookup v path) := by
  unfold LooksUp jsonPathLookup
  rw [hpath]
  by_cases hroot : path = "."
  · rw [if_pos hroot, if_pos (.inr hroot)]
    rfl
  have hneither : ¬ (path = "" ∨ path = ".") := not_or.mpr ⟨hblank, hroot⟩
  rw [if_neg hroot, if_neg hneither]
  cases hdot : hasPrefix path "." with
  | false => rfl
  | true =>
      obtain ⟨tail, htail⟩ := List.isPrefixOf_iff_prefix.mp hdot
      have htrim : trimPrefix path "." = .ofList tail := by
        rw [trimPrefix, if_pos hdot, ← htail]
        rfl
      rw [if_pos rfl, if_neg Bool.noConfusion, htrim, split, String.toList_ofList,
        ← leads_iff fun _ => List.notMem_of_mem_splitOn, List.flatMap_splitOn, ← htail]
      rfl

end Lookup

/-! ### Who is accepted -/

/-- The document says that the token is the user's, and not that it is inactive. -/
def Identifies (doc : Json) (activePath identityPath user : String) : Prop :=
  (activePath = "" ∨ LooksUp doc activePath .missing ∨ LooksUp doc activePath (.value (.bool true))) ∧
    LooksUp doc identityPath (.value (.string user))

section Accept

variable {conf : SIPRegisterBearerAuthConfig} {ext : Provider} {auth : UserBearerAuth} {doc : Json}

/-- The provider is asked and answers with a status and a body. -/
def Answers (conf : SIPRegisterBearerAuthConfig) (ext : Provider) (auth : UserBearerAuth) (statusCode : Int)
    (body : List UInt8) : Prop :=
  conf.url ≠ "" ∧ ∃ url header resp, ext.newRequest conf.url = .ok url ∧ requestHeader conf auth = .ok header ∧
    ext.do_ url header = .ok resp ∧ resp.statusCode = statusCode ∧ resp.body = .ok body

theorem identityPath_trimmed (conf : SIPRegisterBearerAuthConfig) : trimSpace (identityPath conf) = identityPath conf ∧ identityPath conf ≠ "" := by
  unfold identityPath
  split_ifs with hblank
  · exact ⟨by decide, by decide⟩
  · exact ⟨trimSpace_trimSpace _, hblank⟩

theorem checkActive_spec (conf : SIPRegisterBearerAuthConfig) (doc : Json) :
    (checkActive conf doc = .ok () ↔ trimSpace conf.activeField = "" ∨
      LooksUp doc (trimSpace conf.activeField) .missing ∨
      LooksUp doc (trimSpace conf.activeField) (.value (.bool true))) ∧
    ∀ err, checkActive conf doc = .error err → err.wraps = some .errBearerAuthInvalid := by
  unfold checkActive
  by_cases hblank : trimSpace conf.activeField = ""
  · rw [if_pos hblank]
    exact ⟨by simp [hblank], nofun⟩
  rw [if_neg hblank, looksUp_iff (trimSpace_trimSpace _) hblank, looksUp_iff (trimSpace_trimSpace _) hblank]
  obtain err | _ | v := jsonPathLookup doc (trimSpace conf.activeField)
  · simp [found, hblank, bearerAuthInvalid]
  · simp [found]
  · obtain _ | (_ | _) | _ | _ | _ | _ := v <;> simp [found, hblank, bearerAuthInvalid]

theorem checkIdentity_spec (conf : SIPRegisterBearerAuthConfig) (auth : UserBearerAuth) (doc : Json) :
    (checkIdentity conf auth doc = .ok () ↔ LooksUp doc (identityPath conf) (.value (.string auth.user))) ∧
    ∀ err, checkIdentity conf auth doc = .error err → err.wraps = some .errBearerAuthInvalid := by
  obtain ⟨htrimmed, hne⟩ := identityPath_trimmed conf
  unfold checkIdentity
  rw [looksUp_iff htrimmed hne]
  obtain err | _ | v := jsonPathLookup doc (identityPath conf)
  · simp [found, bearerAuthInvalid]
  · simp [found, bearerAuthInvalid]
  · cases v with
    | string identity =>
        dsimp only [found]
        split_ifs with hsame
        · simp [hsame]
        · simp [Ne.symm hsame, bearerAuthInvalid]
    | _ => simp [found, bearerAuthInvalid]

theorem checks_spec (conf : SIPRegisterBearerAuthConfig) (auth : UserBearerAuth) (doc : Json) :
    ((do checkActive conf doc; checkIdentity conf auth doc) = .ok () ↔
      Identifies doc (trimSpace conf.activeField) (identityPath conf) auth.user) ∧
    ∀ err, (do checkActive conf doc; checkIdentity conf auth doc) = .error err →
      err.wraps = some .errBearerAuthInvalid := by
  obtain ⟨hactive, hactive'⟩ := checkActive_spec conf doc
  obtain ⟨hidentity, hidentity'⟩ := checkIdentity_spec conf auth doc
  unfold Identifies
  rw [← hactive, ← hidentity]
  generalize checkActive conf doc = active at hactive' ⊢
  generalize checkIdentity conf auth doc = identity at hidentity' ⊢
  cases active with
  | error err =>
      refine ⟨⟨nofun, fun hok => nomatch hok.1⟩, fun err' herr => ?_⟩
      obtain rfl : err = err' := Except.error.inj herr
      exact hactive' err rfl
  | ok u => exact ⟨⟨fun hok => ⟨rfl, hok⟩, fun hok => hok.2⟩, hidentity'⟩

theorem checkResponse_spec (statusCode : Int) (body : List UInt8) :
    (checkResponse conf ext auth statusCode body = .ok () ↔
      (200 ≤ statusCode ∧ statusCode ≤ 299) ∧ ∃ doc, ext.unmarshal body = .ok doc ∧
        Identifies doc (trimSpace conf.activeField) (identityPath conf) auth.user) ∧
    ∀ err, checkResponse conf ext auth statusCode body = .error err → (err.wraps = some .errBearerAuthInvalid ↔
      statusCode < 500 ∧ ¬ (200 ≤ statusCode ∧ statusCode ≤ 299) ∨
        (200 ≤ statusCode ∧ statusCode ≤ 299) ∧ ∃ doc, ext.unmarshal body = .ok doc) := by
  unfold checkResponse
  by_cases hfailed : statusCode ≥ 500
  · have hstatus : ¬ (200 ≤ statusCode ∧ statusCode ≤ 299) := by omega
    rw [if_pos hfailed]
    simp [hstatus, not_lt.mpr hfailed]
  by_cases hstatus : 200 ≤ statusCode ∧ statusCode ≤ 299
  · have hstatus' : ¬ (statusCode < 200 ∨ statusCode > 299) := by omega
    rw [if_neg hfailed, if_neg hstatus']
    cases hdoc : ext.unmarshal body with
    | error err => simp [hstatus]
    | ok doc =>
        obtain ⟨hok, herr⟩ := checks_spec conf auth doc
        dsimp only
        rw [hok]
        simp only [hstatus, Except.ok.injEq, exists_eq_left', true_and, and_self, not_true_eq_false, and_false,
          false_or, exists_eq', iff_true]
        exact herr
  · have hstatus' : statusCode < 200 ∨ statusCode > 299 := by omega
    rw [if_neg hfailed, if_pos hstatus']
    simp [hstatus, bearerAuthInvalid, not_le.mp hfailed]

theorem userAuthenticateBearer_answered {statusCode : Int} {body : List UInt8}
    (h : Answers conf ext auth statusCode body) :
    (userAuthenticateBearer conf ext auth).2 = checkResponse conf ext auth statusCode body := by
  obtain ⟨hurl, url, header, resp, hrequest, hheader, hdo, rfl, hbody⟩ := h
  unfold userAuthenticateBearer
  simp only [if_neg hurl, hrequest, hheader, hdo, hbody]

theorem answers_of_ok (h : (userAuthenticateBearer conf ext auth).2 = .ok ()) :
    ∃ statusCode body, Answers conf ext auth statusCode body := by
  unfold userAuthenticateBearer at h
  by_cases hurl : conf.url = ""
  · rw [if_pos hurl] at h
    cases h
  rw [if_neg hurl] at h
  cases hrequest : ext.newRequest conf.url with
  | error err => simp [hrequest] at h
  | ok url =>
      cases hheader : requestHeader conf auth with
      | error err => simp [hrequest, hheader] at h
      | ok header =>
          cases hdo : ext.do_ url header with
          | error err => simp [hrequest, hheader, hdo] at h
          | ok resp =>
              cases hbody : resp.body with
              | error err => simp [hrequest, hheader, hdo, hbody] at h
              | ok body => exact ⟨resp.statusCode, body, hurl, url, header, resp, hrequest, hheader, hdo, rfl, hbody⟩

/-- What `errors.Is` finds in an error is all that the registrar asks for. -/
def AuthError.bearerError (err : AuthError) : BearerError :=
  match err.wraps with
  | some .errBearerAuthInvalid => .invalid
  | some .errBearerAuthUnavailable => .unavailable
  | none => .other err.text

/-- The store as the registrar calls it. -/
def bearerStore (conf : SIPRegisterBearerAuthConfig) (ext : Provider) (auth : UserBearerAuth) :
    Except BearerError Unit :=
  (userAuthenticateBearer conf ext auth).2.mapError AuthError.bearerError

/-- A REGISTER that is accepted for its token is one of the user that the provider has named for it. -/
theorem authorizeRegister_identified {auth : Authenticators} {req : Sip.Request} {user user' token : String}
    {expiry : Int} (hstore : auth.bearerStore = some (bearerStore conf ext))
    (h : authorizeRegister auth req user expiry = .accepted (.bearer user' token)) :
    user' = user ∧ requestToken req = some token ∧ ∃ statusCode body doc,
      Answers conf ext ⟨user, token, "REGISTER"⟩ statusCode body ∧ ext.unmarshal body = .ok doc ∧
        Identifies doc (trimSpace conf.activeField) (identityPath conf) user := by
  obtain ⟨token', store, htoken, hstore', hok, hbearer⟩ | ⟨_, _, _, -, -, -, -, -, hdigest⟩ :=
    authorizeRegister_accepted h
  · obtain ⟨rfl, rfl⟩ := Credential.bearer.inj hbearer
    obtain rfl := Option.some.inj (hstore.symm.trans hstore')
    have hresult : (userAuthenticateBearer conf ext ⟨user', token, "REGISTER"⟩).2 = .ok () := by
      unfold bearerStore at hok
      generalize (userAuthenticateBearer conf ext ⟨user', token, "REGISTER"⟩).2 = result at hok
      cases result with
      | error err => cases hok
      | ok u => rfl
    obtain ⟨statusCode, body, hanswers⟩ := answers_of_ok hresult
    rw [userAuthenticateBearer_answered hanswers, (checkResponse_spec statusCode body).1] at hresult
    obtain ⟨-, doc, hdoc, hidentifies⟩ := hresult
    exact ⟨rfl, htoken, statusCode, body, doc, hanswers, hdoc, hidentifies⟩
  · cases hdigest

end Accept

/-- When the provider has answered, the store accepts exactly the user that the document names, under a status of
success. An error is of an invalid token, unless the provider has failed or its document is none. Blanks around a path
are no part of it. -/
theorem userAuthenticateBearer_iff (conf : SIPRegisterBearerAuthConfig) (ext : Provider) (auth : UserBearerAuth)
    {statusCode : Int} {body : List UInt8} (h : Answers conf ext auth statusCode body) :
    ((userAuthenticateBearer conf ext auth).2 = .ok () ↔
      (200 ≤ statusCode ∧ statusCode ≤ 299) ∧ ∃ doc, ext.unmarshal body = .ok doc ∧
        Identifies doc (trimSpace conf.activeField) (identityPath conf) auth.user) ∧
    ∀ err, (userAuthenticateBearer conf ext auth).2 = .error err → (err.wraps = some .errBearerAuthInvalid ↔
      statusCode < 500 ∧ ¬ (200 ≤ statusCode ∧ statusCode ≤ 299) ∨
        (200 ≤ statusCode ∧ statusCode ≤ 299) ∧ ∃ doc, ext.unmarshal body = .ok doc) := by
  rw [userAuthenticateBearer_answered h]
  exact checkResponse_spec statusCode body

def aliceDocument : Json := .object fun key => if key = "sub" then some (.string "alice") else none

/-- A provider that answers every request with the document that names alice. -/
def aliceProvider : Provider where
  newRequest url := .ok url
  do_ _ _ := .ok { statusCode := 200, body := .ok (utf8Bytes "\x7b\"sub\":\"alice\"\x7d") }
  unmarshal body :=
    if body = utf8Bytes "\x7b\"sub\":\"alice\"\x7d" then .ok aliceDocument
    else .error "unexpected end of JSON input"

theorem aliceProvider_answers (identityField : String) :
    Answers { url := "http://idp", identityField := identityField } aliceProvider ⟨"alice", "t0ken", "REGISTER"⟩ 200
      (utf8Bytes "\x7b\"sub\":\"alice\"\x7d") :=
  ⟨show "http://idp" ≠ "" by decide, _, _, _, rfl, rfl, rfl, rfl, rfl⟩

theorem userAuthenticateBearer_alice :
    ((userAuthenticateBearer { url := "http://idp" } aliceProvider ⟨"alice", "t0ken", "REGISTER"⟩).2 = .ok () ↔
      (200 ≤ (200 : Int) ∧ (200 : Int) ≤ 299) ∧
        ∃ doc, aliceProvider.unmarshal (utf8Bytes "\x7b\"sub\":\"alice\"\x7d") = .ok doc ∧
          Identifies doc (trimSpace "") (identityPath { url := "http://idp" }) "alice") ∧
    ∀ err,
      (userAuthenticateBearer { url := "http://idp" } aliceProvider ⟨"alice", "t0ken", "REGISTER"⟩).2 = .error err →
      (err.wraps = some .errBearerAuthInvalid ↔
        (200 : Int) < 500 ∧ ¬ (200 ≤ (200 : Int) ∧ (200 : Int) ≤ 299) ∨
          (200 ≤ (200 : Int) ∧ (200 : Int) ≤ 299) ∧
            ∃ doc, aliceProvider.unmarshal (utf8Bytes "\x7b\"sub\":\"alice\"\x7d") = .ok doc) :=
  userAuthenticateBearer_iff { url := "http://idp" } aliceProvider ⟨"alice", "t0ken", "REGISTER"⟩
    (aliceProvider_answers "")

/-- With a blank behind it the path is that of the field in front of the blank, which the keys of the path are not. -/
theorem not_userAuthenticateBearer_untrimmed :
    ¬ ∀ (conf : SIPRegisterBearerAuthConfig) (ext : Provider) (auth : UserBearerAuth) (statusCode : Int)
      (body : List UInt8), Answers conf ext auth statusCode body →
      ((userAuthenticateBearer conf ext auth).2 = .ok () ↔
        (200 ≤ statusCode ∧ statusCode ≤ 299) ∧ ∃ doc, ext.unmarshal body = .ok doc ∧
          (trimSpace conf.activeField = "" ∨ LooksUp doc conf.activeField .missing ∨
            LooksUp doc conf.activeField (.value (.bool true))) ∧
          LooksUp doc (if trimSpace conf.identityField = "" then ".sub" else conf.identityField)
            (.value (.string auth.user))) := by
  intro h
  have hok : (userAuthenticateBearer { url := "http://idp", identityField := ".sub " } aliceProvider
      ⟨"alice", "t0ken", "REGISTER"⟩).2 = .ok () := by decide +kernel
  obtain ⟨-, doc, hdoc, -, hlookup⟩ := (h _ _ _ _ _ (aliceProvider_answers ".sub ")).mp hok
  have hunmarshal : aliceProvider.unmarshal (utf8Bytes "\x7b\"sub\":\"alice\"\x7d") = .ok aliceDocument := by
    simp [aliceProvider]
  obtain rfl := Except.ok.inj (hunmarshal.symm.trans hdoc)
  rw [if_neg (by decide), LooksUp, if_neg (by decide), if_pos (by decide),
    show ".sub ".toList = '.' :: ("sub ".toList ++ []) from rfl,
    leads_key_iff (by decide) (by decide) (.inl rfl)] at hlookup
  obtain ⟨-, hvalue⟩ | ⟨next, hfield, -⟩ := hlookup
  · cases hvalue
  · have hnone : aliceDocument.field (.ofList "sub ".toList) = none := by
      simp [aliceDocument, Json.field]
    rw [hnone] at hfield
    cases hfield

end Registrar
