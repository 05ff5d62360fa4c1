import Diagox.Config.Load
import Diagox.Registrar.Auth

/-!
# The scheme of an endpoint and the scheme of a REGISTER

An endpoint is configured with a scheme, which an INVITE has to use. The registrar does not look at it: the
digest store has the data of every `user` endpoint whatever its scheme, and the Authorization header of the
request decides between the stores. So a bearer endpoint can be registered with a digest response, for the
empty password if it has none, and a digest endpoint with a token. The scheme is enforced exactly on the
requests that do not try.
-/

namespace Registrar

open Sip Configuration

/-! ### The digest store of the configuration -/

def endpointAuth (e : ConfigEndpoint) : DigestAuth := { username := e.auth.username, password := e.auth.password }

/-- One endpoint in the loop of `setupDiago`. -/
def addUserAuth (users : String → Option DigestAuth) (e : ConfigEndpoint) : String → Option DigestAuth :=
  if e.match.type ≠ "user" then users else Function.update users e.name (some (endpointAuth e))

/-- `UserAuthStoreMemory` after the loop of `setupDiago` over the endpoints. -/
def userAuths (conf : Config) : String → Option DigestAuth :=
  conf.endpoints.entries.foldl (fun users x => addUserAuth users x.2) fun _ => none

/-- The authenticators that `setupDiago` gives the registrar. Without a provider URL there is no bearer
store. -/
def setupAuthenticators (conf : Config) (bearerStore : Option (UserBearerAuth → Except BearerError Unit))
    (authorizeRequest : Request → DigestAuth → Option Response × Option DigestError) : Authenticators where
  digestStore := some fun user _ => userAuths conf user
  bearerStore := bearerStore
  authorizeRequest := authorizeRequest

/-- Different `user` endpoints have different names. -/
def DistinctUsers (conf : Config) : Prop :=
  ∀ x ∈ conf.endpoints.entries, ∀ y ∈ conf.endpoints.entries, x.2.match.type = "user" → y.2.match.type = "user" →
    x.2.name = y.2.name → x.2 = y.2

/-- The data that an endpoint puts into the store under a name. -/
def authFor (user : String) (e : ConfigEndpoint) : Option DigestAuth :=
  if e.match.type = "user" ∧ e.name = user then some (endpointAuth e) else none

theorem addUserAuth_apply (users : String → Option DigestAuth) (e : ConfigEndpoint) (user : String) :
    addUserAuth users e user = (authFor user e).or (users user) := by
  unfold addUserAuth authFor
  by_cases huser : e.match.type = "user"
  · by_cases hname : e.name = user
    · simp [huser, hname]
    · simp [huser, hname, Function.update_of_ne (Ne.symm hname)]
  · simp [huser]

theorem userAuths_eq (conf : Config) (user : String) :
    userAuths conf user = (conf.endpoints.entries.filterMap fun x => authFor user x.2).getLast? := by
  unfold userAuths
  induction conf.endpoints.entries using List.reverseRecOn with
  | nil => rfl
  | append_singleton entries x ih =>
      rw [List.foldl_append, List.foldl_cons, List.foldl_nil, addUserAuth_apply, ih, List.filterMap_append,
        List.getLast?_append]
      cases hx : authFor user x.2 with
      | none => simp [hx]
      | some auth => simp [hx]

theorem userAuths_of_distinct {conf : Config} (hdistinct : DistinctUsers conf) {key : String} {e : ConfigEndpoint}
    (he : ⟨key, e⟩ ∈ conf.endpoints.entries) (huser : e.match.type = "user") :
    userAuths conf e.name = some (endpointAuth e) := by
  rw [userAuths_eq]
  have hmem : endpointAuth e ∈ conf.endpoints.entries.filterMap fun x => authFor e.name x.2 :=
    List.mem_filterMap.mpr ⟨_, he, if_pos ⟨huser, rfl⟩⟩
  obtain ⟨auth, hauth⟩ := Option.isSome_iff_exists.mp (List.getLast?_isSome.mpr (List.ne_nil_of_mem hmem))
  obtain ⟨x, hx, hxauth⟩ := List.mem_filterMap.mp (List.mem_of_getLast? hauth)
  unfold authFor at hxauth
  split_ifs at hxauth with hsame
  rw [hauth, ← hxauth, hdistinct x hx _ he hsame.1 huser hsame.2]

/-! ### Enforcement -/

/-- The credentials are of the scheme of the endpoint: a token of the endpoint, or a digest response for its
username and password. -/
def Enforced (e : ConfigEndpoint) (c : Credential) : Prop :=
  (e.auth.authType = configAuthTypeBearer → ∃ token, c = .bearer e.name token) ∧
    (e.auth.authType = configAuthTypeDigest →
      ∃ auth, c = .digest e.name auth ∧ auth.username = endpointDigestIdentity e ∧ auth.password = e.auth.password)

/-- The digest server answers 200 exactly for an Authorization header that is valid for the username and
the password. -/
def AnswersValid (authorizeRequest : Request → DigestAuth → Option Response × Option DigestError)
    (valid : (authorization username password : String) → Prop) : Prop :=
  ∀ req auth, (∃ res, authorizeRequest req auth = (some res, none) ∧ res.statusCode = 200) ↔
    ∃ value, req.authorization = some value ∧ valid value auth.username auth.password

theorem authorizeDigest_ok {auth : Authenticators} {valid : String → String → String → Prop}
    (hvalid : AnswersValid auth.authorizeRequest valid) (req : Request) (userAuth : DigestAuth) :
    (∃ res, authorizeDigest auth req userAuth = (some res, none) ∧ res.statusCode = 200) ↔
      ∃ value, req.authorization = some value ∧ valid value userAuth.username userAuth.password := by
  unfold authorizeDigest
  split
  next res hfirst =>
    have hno : ¬ ∃ res, auth.authorizeRequest req userAuth = (some res, none) ∧ res.statusCode = 200 := by
      simp [hfirst]
    rw [hvalid] at hno
    rw [hvalid]
    simp [Request.removeAuthorization] at hno ⊢
    exact hno
  next => exact hvalid req userAuth

section Scheme

variable {conf : Config} {bearerStore : Option (UserBearerAuth → Except BearerError Unit)}
variable {authorizeRequest : Request → DigestAuth → Option Response × Option DigestError}
variable {valid : String → String → String → Prop} {key : String} {e : ConfigEndpoint}

theorem accepted_of_token {req : Request} {token : String} {store : UserBearerAuth → Except BearerError Unit}
    {auth : Authenticators} {user : String} {expiry : Int} (htoken : requestToken req = some token)
    (hstore : auth.bearerStore = some store) (hok : store ⟨user, token, "REGISTER"⟩ = .ok ()) :
    authorizeRegister auth req user expiry = .accepted (.bearer user token) := by
  simp [authorizeRegister, htoken, hstore, hok]

theorem accepted_of_digest {req : Request} {auth : Authenticators} {user : String} {expiry : Int}
    {store : String → DigestAuth → Option DigestAuth} {found : DigestAuth} {res : Response}
    (htoken : requestToken req = none) (hstore : auth.digestStore = some store)
    (hfound : store user { realm := "diagox" } = some found)
    (hres : authorizeDigest auth req (fillDigestAuth user expiry found) = (some res, none))
    (h200 : res.statusCode = 200) :
    authorizeRegister auth req user expiry = .accepted (.digest user (fillDigestAuth user expiry found)) := by
  simp [authorizeRegister, htoken, hstore, hfound, hres, h200]

/-- The scheme of an endpoint is enforced on a request with its name in the From header exactly when a bearer endpoint
is not asked with a valid digest response instead of a token, and a digest endpoint not with a token that the provider
takes. -/
theorem schemeEnforced_iff (hdistinct : DistinctUsers conf) (hvalid : AnswersValid authorizeRequest valid)
    (he : ⟨key, e⟩ ∈ conf.endpoints.entries) (huser : e.match.type = "user") (req : Request) (expiry : Int) :
    (∀ c, authorizeRegister (setupAuthenticators conf bearerStore authorizeRequest) req e.name expiry = .accepted c →
        Enforced e c) ↔
      (e.auth.authType = configAuthTypeBearer → requestToken req = none →
        ¬ ∃ value, req.authorization = some value ∧ valid value (endpointDigestIdentity e) e.auth.password) ∧
      (e.auth.authType = configAuthTypeDigest → ∀ token, requestToken req = some token →
        ¬ ∃ store, bearerStore = some store ∧ store ⟨e.name, token, "REGISTER"⟩ = .ok ()) := by
  have hfound := userAuths_of_distinct hdistinct he huser
  let auth := setupAuthenticators conf bearerStore authorizeRequest
  have hvalid : AnswersValid auth.authorizeRequest valid := hvalid
  have hok := authorizeDigest_ok hvalid req (fillDigestAuth e.name expiry (endpointAuth e))
  have hidentity : (fillDigestAuth e.name expiry (endpointAuth e)).username = endpointDigestIdentity e := by
    by_cases hempty : e.auth.username = "" <;> simp [fillDigestAuth, endpointAuth, endpointDigestIdentity, hempty]
  have hpassword : (fillDigestAuth e.name expiry (endpointAuth e)).password = e.auth.password := rfl
  rw [hidentity, hpassword] at hok
  constructor
  · intro henforced
    refine ⟨fun htype htoken hdigest => ?_, fun htype token htoken htakes => ?_⟩
    · obtain ⟨res, hres, h200⟩ := hok.mpr hdigest
      obtain ⟨token, hc⟩ := (henforced _ (accepted_of_digest htoken rfl hfound hres h200)).1 htype
      cases hc
    · obtain ⟨store, hstore, htake⟩ := htakes
      obtain ⟨auth, hc, -⟩ := (henforced _ (accepted_of_token htoken hstore htake)).2 htype
      cases hc
  · rintro ⟨hbearer, hdigest⟩ c hc
    obtain ⟨token, store, htoken, hstore, htake, rfl⟩ | ⟨store, found, res, htoken, hstore, hread, hres, h200, rfl⟩ :=
      authorizeRegister_accepted hc
    · refine ⟨fun _ => ⟨token, rfl⟩, fun htype => ?_⟩
      exact absurd ⟨store, hstore, htake⟩ (hdigest htype token htoken)
    · obtain rfl : (fun user _ => userAuths conf user) = store := Option.some.inj hstore
      obtain rfl : _ = found := Option.some.inj (hfound.symm.trans hread)
      refine ⟨fun htype => absurd (hok.mp ⟨res, hres, h200⟩) (hbearer htype htoken), fun _ => ?_⟩
      exact ⟨_, rfl, hidentity, rfl⟩

end Scheme

/-- A bearer endpoint without username and password. -/
def bearerEndpoint : ConfigEndpoint :=
  { name := "alice", «match» := { type := "user" }, auth := { type := "bearer" }, route := "default" }

def bearerConfig : Config where
  endpoints := AList.singleton "alice" bearerEndpoint
  routes := AList.singleton "default" (some [defaultRoute])
  endpointOrder := ["alice"]

/-- A digest header that spells out what it answers for. -/
def digestHeader (username password : String) : String := "Digest " ++ username ++ ":" ++ password

def spelledDigest (req : Request) (auth : DigestAuth) : Option Response × Option DigestError :=
  if req.authorization = some (digestHeader auth.username auth.password) then (some ⟨200, "OK", []⟩, none)
  else (some ⟨401, "Unathorized", []⟩, none)

theorem spelledDigest_answersValid :
    AnswersValid spelledDigest fun value username password => value = digestHeader username password := by
  intro req auth
  unfold spelledDigest
  split_ifs with h
  · simp [h]
  · simpa using h

theorem bearerConfig_distinct : DistinctUsers bearerConfig := by
  intro x hx y hy _ _ _
  have hx : x = ⟨"alice", bearerEndpoint⟩ := List.mem_singleton.mp hx
  have hy : y = ⟨"alice", bearerEndpoint⟩ := List.mem_singleton.mp hy
  rw [hx, hy]

def takesAll : UserBearerAuth → Except BearerError Unit := fun _ => .ok ()

theorem schemeEnforced_token :
    authorizeRegister (setupAuthenticators bearerConfig (some takesAll) spelledDigest)
        { authorization := some "Bearer t" } "alice" 0 = .accepted (.bearer "alice" "t") ∧
      Enforced bearerEndpoint (.bearer "alice" "t") := by
  have haccepted : authorizeRegister (setupAuthenticators bearerConfig (some takesAll) spelledDigest)
      { authorization := some "Bearer t" } "alice" 0 = .accepted (.bearer "alice" "t") := by decide
  have hmem : ⟨"alice", bearerEndpoint⟩ ∈ bearerConfig.endpoints.entries := List.mem_singleton.mpr rfl
  have htoken : requestToken { authorization := some "Bearer t" } = some "t" := by decide
  refine ⟨haccepted, (schemeEnforced_iff bearerConfig_distinct spelledDigest_answersValid hmem rfl
    { authorization := some "Bearer t" } 0).mpr ⟨fun _ hnone => ?_, fun htype => ?_⟩ _ haccepted⟩
  · rw [htoken] at hnone
    cases hnone
  · exact absurd htype (by decide)

/-- A bearer endpoint is registered with a digest response for the empty password. -/
theorem not_schemeEnforced :
    ¬ ∀ (conf : Config) (bearerStore : Option (UserBearerAuth → Except BearerError Unit))
        (authorizeRequest : Request → DigestAuth → Option Response × Option DigestError)
        (valid : String → String → String → Prop) (key : String) (e : ConfigEndpoint) (req : Request) (expiry : Int),
      validate conf = .ok () → DistinctUsers conf → AnswersValid authorizeRequest valid →
      ⟨key, e⟩ ∈ conf.endpoints.entries → e.match.type = "user" →
      ∀ c, authorizeRegister (setupAuthenticators conf bearerStore authorizeRequest) req e.name expiry = .accepted c →
        Enforced e c := by
  intro h
  have := h bearerConfig none spelledDigest _ "alice" bearerEndpoint
    { authorization := some (digestHeader "alice" "") } 0 (by decide) bearerConfig_distinct spelledDigest_answersValid
    (List.mem_singleton.mpr rfl) rfl
    (.digest "alice" { username := "alice", password := "", realm := "diagox", expire := 0 }) (by decide)
  obtain ⟨token, hc⟩ := this.1 (by decide)
  cases hc

end Registrar
