import Diagox.Sip

/-!
# Authorization of a REGISTER

`authorizeRegister` of `registrar.go`. The scheme is taken from the Authorization header: a bearer token is
left to the bearer store, everything else to the digest server with what the digest store has for the user.
Both stores and the digest server are code behind an interface, so they are parameters; a missing store is
`none`. The verdict records what was accepted.
-/

namespace Registrar

open Sip Strings

structure UserBearerAuth where
  user : String
  token : String
  method : String
  deriving DecidableEq, Repr

inductive BearerError where
  | invalid
  | unavailable
  | other (text : String)
  deriving DecidableEq, Repr

inductive DigestError where
  /-- `ErrDigestAuthNoChallenge`. -/
  | noChallenge
  | other (text : String)
  deriving DecidableEq, Repr

/-- What the registrar authenticates with, as it answers while one request is handled. -/
structure Authenticators where
  /-- `UserReadDigestAuth`: the data after the call, or an error. -/
  digestStore : Option (String → DigestAuth → Option DigestAuth) := none
  /-- `UserAuthenticateBearer`. -/
  bearerStore : Option (UserBearerAuth → Except BearerError Unit) := none
  /-- `AuthorizeRequest` of the digest server. -/
  authorizeRequest : Request → DigestAuth → Option Response × Option DigestError

/-- The credentials a request was accepted with: the token of a user, or a digest response for the data the
store has for a user. -/
inductive Credential where
  | bearer (user token : String)
  | digest (user : String) (auth : DigestAuth)
  deriving DecidableEq, Repr

def Credential.user : Credential → String
  | .bearer user _ => user
  | .digest user _ => user

inductive Verdict where
  | accepted (c : Credential)
  | refused (res : Response)
  | panicked
  deriving DecidableEq, Repr

def bearerToken (authValue : String) : Option String :=
  match cut authValue ' ' with
  | none => none
  | some (scheme, token) =>
      if equalFold scheme "Bearer" then
        if trimSpace token ≠ "" then some (trimSpace token) else none
      else none

/-- The token in the Authorization header of a request. -/
def requestToken (req : Request) : Option String := req.authorization.bind fun value => bearerToken (trimSpace value)

def second : Int := 1000000000

def minute : Int := 60 * second

/-- The data of the store with the defaults of the registrar. -/
def fillDigestAuth (user : String) (expiry : Int) (userAuth : DigestAuth) : DigestAuth :=
  { username := if userAuth.username = "" then user else userAuth.username
    password := userAuth.password
    realm := if userAuth.realm = "" then "diagox" else userAuth.realm
    expire := if userAuth.expire = 0 then min (5 * minute) expiry else userAuth.expire }

/-- The digest server is asked again without the header when it does not know the challenge. -/
def authorizeDigest (auth : Authenticators) (req : Request) (userAuth : DigestAuth) :
    Option Response × Option DigestError :=
  match auth.authorizeRequest req userAuth with
  | (_, some .noChallenge) => auth.authorizeRequest req.removeAuthorization userAuth
  | answer => answer

def notFound : Response := ⟨404, "Not Found", []⟩

def authorizeRegister (auth : Authenticators) (req : Request) (user : String) (expiry : Int) : Verdict :=
  match requestToken req with
  | some token => match auth.bearerStore with
    | none => .refused ⟨503, "Service Unavailable", []⟩
    | some userAuthenticateBearer => match userAuthenticateBearer ⟨user, token, "REGISTER"⟩ with
      | .error _ => .refused ⟨401, "Unauthorized", []⟩
      | .ok () => .accepted (.bearer user token)
  | none => match auth.digestStore with
    | none => .refused notFound
    | some userReadDigestAuth => match userReadDigestAuth user { realm := "diagox" } with
      | none => .refused notFound
      | some found =>
          let userAuth := fillDigestAuth user expiry found
          match authorizeDigest auth req userAuth with
          -- the status of the response is read before anything else, also next to an error
          | (none, _) => .panicked
          | (some res, some _) => .refused res
          | (some res, none) => if res.statusCode ≠ 200 then .refused res else .accepted (.digest user userAuth)

section Verdict

variable {auth : Authenticators} {req : Request} {user : String} {expiry : Int} {c : Credential}

/-- An accepted request has a token that the bearer store took for the user, or no token and a digest
response that the digest server took for the data of the user. -/
theorem authorizeRegister_accepted (h : authorizeRegister auth req user expiry = .accepted c) :
    (∃ token store, requestToken req = some token ∧ auth.bearerStore = some store ∧
      store ⟨user, token, "REGISTER"⟩ = .ok () ∧ c = .bearer user token) ∨
    (∃ store found res, requestToken req = none ∧ auth.digestStore = some store ∧
      store user { realm := "diagox" } = some found ∧
      authorizeDigest auth req (fillDigestAuth user expiry found) = (some res, none) ∧ res.statusCode = 200 ∧
      c = .digest user (fillDigestAuth user expiry found)) := by
  unfold authorizeRegister at h
  cases htoken : requestToken req with
  | some token =>
      rw [htoken] at h
      cases hstore : auth.bearerStore with
      | none => simp [hstore] at h
      | some store =>
          cases hok : store ⟨user, token, "REGISTER"⟩ with
          | error e => simp [hstore, hok] at h
          | ok u =>
              simp only [hstore, hok, Verdict.accepted.injEq] at h
              exact .inl ⟨token, store, rfl, rfl, hok, h.symm⟩
  | none =>
      rw [htoken] at h
      cases hstore : auth.digestStore with
      | none => simp [hstore] at h
      | some store =>
          cases hfound : store user { realm := "diagox" } with
          | none => simp [hstore, hfound] at h
          | some found =>
              rcases hres : authorizeDigest auth req (fillDigestAuth user expiry found) with ⟨res, err⟩
              cases res with
              | none => simp [hstore, hfound, hres] at h
              | some res =>
                  cases err with
                  | some err => simp [hstore, hfound, hres] at h
                  | none =>
                      by_cases h200 : res.statusCode = 200
                      · simp only [hstore, hfound, hres, h200, ne_eq, not_true_eq_false, if_false,
                          Verdict.accepted.injEq] at h
                        exact .inr ⟨store, found, res, rfl, rfl, hfound, hres, h200, h.symm⟩
                      · simp [hstore, hfound, hres, h200] at h

theorem authorizeRegister_user (h : authorizeRegister auth req user expiry = .accepted c) : c.user = user := by
  obtain ⟨token, store, -, -, -, rfl⟩ | ⟨store, found, res, -, -, -, -, -, rfl⟩ := authorizeRegister_accepted h
  · rfl
  · rfl

end Verdict

end Registrar
