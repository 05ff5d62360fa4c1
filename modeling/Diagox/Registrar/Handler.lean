import Diagox.Registrar.Seconds
import Diagox.Registry.Memory

/-!
# Handling of a REGISTER

`registerHandler` of `registrar.go`. Everything up to the write of the registry is a decision that depends
on the request alone: the checks of the request, the authorization, and what the contacts ask for. Each of
them either goes on or ends the handler.
-/

namespace Registrar

open Sip Registry

/-- How a handler ends before it writes: with a response, or in a panic. -/
inductive Rejection where
  | responds (res : Response)
  | panics
  deriving DecidableEq, Repr

def rejectWith (statusCode : Nat) (reason : String) (headers : List Header := []) : Rejection :=
  .responds ⟨statusCode, reason, headers⟩

/-- What the checks before the authorization leave. -/
structure Checked where
  callID : String
  fromAddress : Uri
  aor : Uri
  expiry : Int
  deriving DecidableEq, Repr

def defaultExpiry : Int := 60 * minute

/-- The interval asked for in the Expires header. -/
def requestedExpiry (deps : Deps) (req : Request) : Option Int :=
  match req.expires with
  | none => some defaultExpiry
  | some value => deps.parseDuration (value ++ "s")

def checkRegister (deps : Deps) (hostname : String) (req : Request) : Except Rejection Checked :=
  match req.hasVia, req.callID, req.fromAddress, req.toAddress with
  | true, some callID, some fromAddress, some toAddress =>
      if hostname ≠ "" ∧ req.recipient.host ≠ hostname then .error (rejectWith 403 "Forbidden")
      else if req.contacts = [] then .error (rejectWith 400 "Bad Request - Contact header missing")
      else match requestedExpiry deps req with
        | none => .error (rejectWith 400 "Bad Request - Expires header malformed")
        | some expiry => .ok ⟨callID, fromAddress, toAddress, expiry⟩
  | _, _, _, _ => .error (rejectWith 400 "Bad Request")

/-- A Contact header as the message library has parsed it, or parsed here. -/
def readContact (deps : Deps) : Header → Except Rejection ContactHeader
  | .contact h => .ok h
  | .other name value => match deps.parserContact name value with
    | none => .error (rejectWith 400 "Bad Request - Contact header malformed")
    | some (.contact h) => .ok h
    | some (.other _ _) => .error .panics

def createRegId (user host : String) : String := user ++ "@" ++ host

/-- The expires parameter of a contact, empty without one. -/
def contactExpires (h : ContactHeader) : String := (h.params.get "expires").getD ""

/-- The contacts that are kept, and the smallest interval they and the request ask for. -/
def keepContacts (deps : Deps) (expiry : Int) : List ContactHeader → Except Rejection (List Uri × Int)
  | [] => .ok ([], expiry)
  | h :: hdrs =>
      if contactExpires h = "0" then keepContacts deps expiry hdrs
      else if contactExpires h = "" then do
        let (contacts, expiry) ← keepContacts deps expiry hdrs
        return (h.address :: contacts, expiry)
      else match deps.parseDuration (contactExpires h ++ "s") with
        | none => .error (rejectWith 400 "Bad Request - Expires header in contact malformed")
        | some exp => do
            let (contacts, expiry) ← keepContacts deps (min expiry exp) hdrs
            return (h.address :: contacts, expiry)

/-- What a request asks of the registry. -/
inductive Update where
  | delete
  | set (hdrs : List ContactHeader) (binding : RegisterBinding (List Uri))
  deriving DecidableEq, Repr

def isWildcard : List ContactHeader → Bool
  | [h] => h.address.wildcard
  | _ => false

def minExpiry : Int := 30 * second

def contactUpdate (deps : Deps) (req : Request) (checked : Checked) : Except Rejection Update := do
  let hdrs ← req.contacts.mapM (readContact deps)
  if checked.expiry = 0 ∧ isWildcard hdrs then
    return .delete
  else
    let (contacts, expiry) ← keepContacts deps checked.expiry hdrs
    if expiry < minExpiry then
      throw (rejectWith 423 "Interval Too Brief" [.other "Min-Expires" "30"])
    else
      return .set hdrs
        { aor := checked.aor
          callID := deps.callIDString checked.callID
          contacts := contacts
          expiry := expiry
          sourceAddr := req.source
          transport := req.transport }

/-- The 200 response to a binding: every contact of the request, with the interval in whole seconds. -/
def registered (hdrs : List ContactHeader) (binding : RegisterBinding (List Uri)) : Response :=
  { statusCode := 200
    reason := "OK"
    headers := hdrs.map fun h => .contact { h with params := h.params.add "expires" (toString (wholeSeconds binding.expiry)) } }

inductive Ended where
  | returned
  | panicked
  /-- A call of the registry does not return. -/
  | blocked
  deriving DecidableEq, Repr

/-- What came of a request: the registry after it, the responses sent, the credentials it was accepted
with, and how the handler ended. -/
structure Outcome (ρ : Type) where
  registry : ρ
  responses : List Response := []
  accepted : Option Credential := none
  ended : Ended := .returned

variable {ρ : Type}

def Rejection.outcome (m : ρ) (accepted : Option Credential) : Rejection → Outcome ρ
  | .responds res => { registry := m, responses := [res], accepted := accepted }
  | .panics => { registry := m, accepted := accepted, ended := .panicked }

/-- The write of the registry, and the response to it. -/
def applyUpdate (store : RegistryStore ρ) (m : ρ) (accepted : Credential) (regId : String) : Update → Outcome ρ
  | .delete => match store.registerBindingDelete m regId with
    | none => { registry := m, accepted := accepted, ended := .blocked }
    | some (m', _) => { registry := m', responses := [⟨200, "OK", []⟩], accepted := accepted }
  | .set hdrs binding => match store.registerBindingSet m regId binding with
    | none => { registry := m, accepted := accepted, ended := .blocked }
    | some (m', .error _) => { registry := m', responses := [⟨500, "Internal Server Error", []⟩], accepted := accepted }
    | some (m', .ok ()) => { registry := m', responses := [registered hdrs binding], accepted := accepted }

def registerHandler (deps : Deps) (auth : Authenticators) (store : RegistryStore ρ) (hostname : String) (m : ρ)
    (req : Request) : Outcome ρ :=
  match checkRegister deps hostname req with
  | .error rejection => rejection.outcome m none
  | .ok checked => match authorizeRegister auth req checked.fromAddress.user checked.expiry with
    | .panicked => { registry := m, ended := .panicked }
    | .refused res => { registry := m, responses := [res] }
    | .accepted c => match contactUpdate deps req checked with
      | .error rejection => rejection.outcome m (some c)
      | .ok update => applyUpdate store m c (createRegId checked.aor.user hostname) update

/-! ### What a request that is admitted asks for -/

/-- A request that comes as far as the registry. -/
structure Admitted (deps : Deps) (auth : Authenticators) (hostname : String) (req : Request) (checked : Checked)
    (c : Credential) (update : Update) : Prop where
  check : checkRegister deps hostname req = .ok checked
  authorize : authorizeRegister auth req checked.fromAddress.user checked.expiry = .accepted c
  contacts : contactUpdate deps req checked = .ok update

section Handler

variable {deps : Deps} {auth : Authenticators} {hostname : String} {req : Request} {checked : Checked}
variable {c : Credential} {update : Update}

theorem registerHandler_of_admitted (h : Admitted deps auth hostname req checked c update)
    (store : RegistryStore ρ) (m : ρ) :
    registerHandler deps auth store hostname m req =
      applyUpdate store m c (createRegId checked.aor.user hostname) update := by
  simp [registerHandler, h.check, h.authorize, h.contacts]

theorem registerHandler_of_not_admitted (h : ∀ checked c update, ¬ Admitted deps auth hostname req checked c update)
    (store : RegistryStore ρ) (m : ρ) : (registerHandler deps auth store hostname m req).registry = m := by
  unfold registerHandler
  cases hcheck : checkRegister deps hostname req with
  | error rejection => cases rejection <;> rfl
  | ok checked =>
      cases hauth : authorizeRegister auth req checked.fromAddress.user checked.expiry with
      | panicked => simp only [hauth]
      | refused res => simp only [hauth]
      | accepted c =>
          cases hupdate : contactUpdate deps req checked with
          | error rejection => cases rejection <;> simp only [hauth, hupdate, Rejection.outcome]
          | ok update => exact absurd ⟨hcheck, hauth, hupdate⟩ (h checked c update)

theorem keepContacts_cons (deps : Deps) (expiry : Int) (h : ContactHeader) (hdrs : List ContactHeader) :
    keepContacts deps expiry (h :: hdrs) =
      if contactExpires h = "0" then keepContacts deps expiry hdrs
      else if contactExpires h = "" then (keepContacts deps expiry hdrs).map (Prod.map (h.address :: ·) id)
      else match deps.parseDuration (contactExpires h ++ "s") with
        | none => .error (rejectWith 400 "Bad Request - Expires header in contact malformed")
        | some exp => (keepContacts deps (min expiry exp) hdrs).map (Prod.map (h.address :: ·) id) := by
  have hmap : ∀ r : Except Rejection (List Uri × Int),
      (do let (contacts, expiry) ← r; return (h.address :: contacts, expiry)) =
        r.map (Prod.map (h.address :: ·) id) := by
    intro r
    rcases r with err | ⟨contacts, expiry⟩ <;> rfl
  simp only [keepContacts, hmap]

theorem checkRegister_of_headers (deps : Deps) (hostname : String) {callID : String} {fromAddress aor : Uri}
    (hvia : req.hasVia = true) (hcallID : req.callID = some callID) (hfrom : req.fromAddress = some fromAddress)
    (hto : req.toAddress = some aor) :
    checkRegister deps hostname req =
      if hostname ≠ "" ∧ req.recipient.host ≠ hostname then .error (rejectWith 403 "Forbidden")
      else if req.contacts = [] then .error (rejectWith 400 "Bad Request - Contact header missing")
      else match requestedExpiry deps req with
        | none => .error (rejectWith 400 "Bad Request - Expires header malformed")
        | some expiry => .ok ⟨callID, fromAddress, aor, expiry⟩ := by
  simp only [checkRegister, hvia, hcallID, hfrom, hto]

theorem checkRegister_ok (h : checkRegister deps hostname req = .ok checked) :
    req.fromAddress = some checked.fromAddress ∧ req.toAddress = some checked.aor ∧
      requestedExpiry deps req = some checked.expiry := by
  unfold checkRegister at h
  split at h
  · split_ifs at h
    cases hexpiry : requestedExpiry deps req with
    | none => simp [hexpiry] at h
    | some expiry =>
        simp only [hexpiry, Except.ok.injEq] at h
        subst h
        exact ⟨by assumption, by assumption, rfl⟩
  · cases h

end Handler

/-! ### What a request that is not admitted is answered -/

/-- The digest server gives no 200 response along with an error. -/
def Authenticators.ErrorsRefuse (auth : Authenticators) : Prop :=
  ∀ req userAuth res err, auth.authorizeRequest req userAuth = (some res, some err) → res.statusCode ≠ 200

/-- An outcome that does not answer 200. -/
def Rejection.Refuses (rejection : Rejection) : Prop := ∀ res, rejection = .responds res → res.statusCode ≠ 200

/-- A response other than 200, or a panic over a parser that makes another header of a Contact. -/
def Rejection.Expected (deps : Deps) : Rejection → Prop
  | .responds res => res.statusCode ≠ 200
  | .panics => ∃ name value name' value', deps.parserContact name value = some (.other name' value')

theorem Rejection.Expected.refuses {deps : Deps} {rejection : Rejection} (h : rejection.Expected deps) :
    rejection.Refuses := by
  intro res hres
  subst hres
  exact h

theorem expected_rejectWith (deps : Deps) {statusCode : Nat} (h : statusCode ≠ 200) (reason : String)
    (headers : List Header) : (rejectWith statusCode reason headers).Expected deps := h

theorem checkRegister_error {deps : Deps} {hostname : String} {req : Request} {rejection : Rejection}
    (h : checkRegister deps hostname req = .error rejection) : rejection.Expected deps := by
  unfold checkRegister at h
  split at h
  · split_ifs at h
    · exact Except.error.inj h ▸ expected_rejectWith deps (by decide) _ _
    · exact Except.error.inj h ▸ expected_rejectWith deps (by decide) _ _
    · cases hexpiry : requestedExpiry deps req with
      | none =>
          rw [hexpiry] at h
          exact Except.error.inj h ▸ expected_rejectWith deps (by decide) _ _
      | some expiry => simp [hexpiry] at h
  · exact Except.error.inj h ▸ expected_rejectWith deps (by decide) _ _

theorem readContact_error {deps : Deps} {header : Header} {rejection : Rejection}
    (h : readContact deps header = .error rejection) : rejection.Expected deps := by
  unfold readContact at h
  split at h
  · cases h
  · split at h
    · exact Except.error.inj h ▸ expected_rejectWith deps (by decide) _ _
    · cases h
    · next hparse => exact Except.error.inj h ▸ ⟨_, _, _, _, hparse⟩

theorem mapM_readContact_error {deps : Deps} {headers : List Header} {rejection : Rejection}
    (h : headers.mapM (readContact deps) = .error rejection) : rejection.Expected deps := by
  induction headers with
  | nil => cases h
  | cons x headers ih =>
      rw [List.mapM_cons] at h
      cases hx : readContact deps x with
      | error e =>
          obtain rfl : e = rejection := by simpa [hx, bind, Except.bind] using h
          exact readContact_error hx
      | ok hdr =>
          cases hrest : headers.mapM (readContact deps) with
          | error e =>
              obtain rfl : e = rejection := by simpa [hx, hrest, bind, Except.bind] using h
              exact ih hrest
          | ok rest => simp [hx, hrest, bind, Except.bind, pure, Except.pure] at h

theorem keepContacts_error {deps : Deps} {expiry : Int} {hdrs : List ContactHeader} {rejection : Rejection}
    (h : keepContacts deps expiry hdrs = .error rejection) : rejection.Expected deps := by
  induction hdrs generalizing expiry with
  | nil => cases h
  | cons hdr hdrs ih =>
      unfold keepContacts at h
      split_ifs at h
      · exact ih h
      · cases hrest : keepContacts deps expiry hdrs with
        | error e =>
            obtain rfl : e = rejection := by simpa [hrest, bind, Except.bind] using h
            exact ih hrest
        | ok kept => simp [hrest, bind, Except.bind, pure, Except.pure] at h
      · cases hexp : deps.parseDuration (contactExpires hdr ++ "s") with
        | none =>
            rw [hexp] at h
            exact Except.error.inj h ▸ expected_rejectWith deps (by decide) _ _
        | some exp =>
            cases hrest : keepContacts deps (min expiry exp) hdrs with
            | error e =>
                obtain rfl : e = rejection := by simpa [hexp, hrest, bind, Except.bind] using h
                exact ih hrest
            | ok kept => simp [hexp, hrest, bind, Except.bind, pure, Except.pure] at h

theorem contactUpdate_error {deps : Deps} {req : Request} {checked : Checked} {rejection : Rejection}
    (h : contactUpdate deps req checked = .error rejection) : rejection.Expected deps := by
  unfold contactUpdate at h
  cases hread : req.contacts.mapM (readContact deps) with
  | error e =>
      obtain rfl : e = rejection := by simpa [hread, bind, Except.bind] using h
      exact mapM_readContact_error hread
  | ok hdrs =>
      simp only [hread, bind, Except.bind] at h
      split_ifs at h
      · cases h
      · rcases hkeep : keepContacts deps checked.expiry hdrs with e | ⟨contacts, expiry⟩
        · obtain rfl : e = rejection := by simpa [hkeep] using h
          exact keepContacts_error hkeep
        · simp only [hkeep] at h
          split_ifs at h
          · exact Except.error.inj h ▸ expected_rejectWith deps (by decide) _ _
          · cases h

theorem authorizeRegister_refused {auth : Authenticators} (hauth : auth.ErrorsRefuse) {req : Request} {user : String}
    {expiry : Int} {res : Response} (h : authorizeRegister auth req user expiry = .refused res) :
    res.statusCode ≠ 200 := by
  unfold authorizeRegister at h
  split at h
  · split at h
    · exact Verdict.refused.inj h ▸ by decide
    · split at h
      · exact Verdict.refused.inj h ▸ by decide
      · cases h
  · split at h
    · exact Verdict.refused.inj h ▸ by decide
    · split at h
      · exact Verdict.refused.inj h ▸ by decide
      · next found _ =>
        have hdigest := hauth req (fillDigestAuth user expiry found)
        have hagain := hauth req.removeAuthorization (fillDigestAuth user expiry found)
        simp only at h
        split at h
        · cases h
        · next res' err hres =>
          obtain rfl : res' = res := Verdict.refused.inj h
          unfold authorizeDigest at hres
          split at hres
          · exact hagain _ _ hres
          · exact hdigest _ _ hres
        · split_ifs at h with h200
          obtain rfl := Verdict.refused.inj h
          exact h200

theorem responses_of_not_admitted {deps : Deps} {auth : Authenticators} (hauth : auth.ErrorsRefuse)
    {hostname : String} {req : Request} (h : ∀ checked c update, ¬ Admitted deps auth hostname req checked c update)
    (store : RegistryStore ρ) (m : ρ) :
    ∀ res ∈ (registerHandler deps auth store hostname m req).responses, res.statusCode ≠ 200 := by
  have hrefuses : ∀ (rejection : Rejection) (accepted : Option Credential), rejection.Refuses →
      ∀ res ∈ (rejection.outcome m accepted).responses, res.statusCode ≠ 200 := by
    intro rejection accepted hrejection res hres
    cases rejection with
    | responds res' => exact hrejection res (by rw [List.mem_singleton.mp hres])
    | panics => simp [Rejection.outcome] at hres
  unfold registerHandler
  cases hcheck : checkRegister deps hostname req with
  | error rejection => exact hrefuses _ _ (checkRegister_error hcheck).refuses
  | ok checked =>
      cases hverdict : authorizeRegister auth req checked.fromAddress.user checked.expiry with
      | panicked => simp [hverdict]
      | refused res => simpa [hverdict] using authorizeRegister_refused hauth hverdict
      | accepted c =>
          cases hupdate : contactUpdate deps req checked with
          | error rejection => simpa [hverdict, hupdate] using hrefuses _ (some c) (contactUpdate_error hupdate).refuses
          | ok update => exact absurd ⟨hcheck, hverdict, hupdate⟩ (h checked c update)

/-! ### Over the registry in memory -/

/-- The binding an update leaves under its id. -/
def Update.binding : Update → Option (RegisterBinding (List Uri))
  | .delete => none
  | .set _ binding => some binding

/-- The response to an update that the registry has taken. -/
def Update.response : Update → Response
  | .delete => ⟨200, "OK", []⟩
  | .set hdrs binding => registered hdrs binding

theorem Update.response_statusCode (update : Update) : update.response.statusCode = 200 := by
  cases update <;> rfl

theorem applyUpdate_memory {r : RegistryMemory} (hr : r.Sound) (c : Credential) (id : String) (update : Update) :
    ∃ r', applyUpdate memoryStore r c id update =
        { registry := r', responses := [update.response], accepted := some c } ∧
      r'.Sound ∧ r'.binding = Function.update r.binding id update.binding := by
  cases update with
  | delete =>
      obtain ⟨r', hdelete, hsound, hbinding⟩ := memoryStore_delete hr id
      refine ⟨r', ?_, hsound, hbinding⟩
      simp [applyUpdate, hdelete, Update.response]
  | set hdrs binding =>
      obtain ⟨r', hset, hsound, hbinding⟩ := memoryStore_set hr id binding
      refine ⟨r', ?_, hsound, hbinding⟩
      simp [applyUpdate, hset, Update.response]

/-- What one request leads to over the registry in memory: nothing is written, or the update of a request
that is admitted. -/
theorem registerHandler_memory (deps : Deps) (auth : Authenticators) (hostname : String) {r : RegistryMemory}
    (hr : r.Sound) (req : Request) :
    ((∀ checked c update, ¬ Admitted deps auth hostname req checked c update) ∧
        (registerHandler deps auth memoryStore hostname r req).registry = r) ∨
      ∃ checked c update r', Admitted deps auth hostname req checked c update ∧
        registerHandler deps auth memoryStore hostname r req =
          { registry := r', responses := [update.response], accepted := some c } ∧
        r'.Sound ∧ r'.binding = Function.update r.binding (createRegId checked.aor.user hostname) update.binding := by
  by_cases hpassed : ∀ checked c update, ¬ Admitted deps auth hostname req checked c update
  · exact .inl ⟨hpassed, registerHandler_of_not_admitted hpassed memoryStore r⟩
  · push Not at hpassed
    obtain ⟨checked, c, update, h⟩ := hpassed
    obtain ⟨r', happly, hsound, hbinding⟩ :=
      applyUpdate_memory hr c (createRegId checked.aor.user hostname) update
    exact .inr ⟨checked, c, update, r', h, by rw [registerHandler_of_admitted h, happly], hsound, hbinding⟩

theorem createRegId_injective (host : String) : Function.Injective fun user => createRegId user host := by
  intro u v h
  simp only [createRegId, String.append_assoc] at h
  exact (String.append_left_inj _).mp h

end Registrar
