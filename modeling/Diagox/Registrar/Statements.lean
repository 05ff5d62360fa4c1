import Diagox.Lib.Defer
import Diagox.Registrar.Ownership

/-!
# The handler statement by statement

`registerHandler` and `authorizeRegister` of `registrar.go` with every response and every call of the
registry where the code has it. `authorizeRegister` sends its own response and reports to its caller only
whether it has let the request pass, and the loops over the contacts leave the handler from their middle.
Each part is described by the decision of `Handler` it comes to, so the whole leads to the outcome of
`registerHandler`.
-/

namespace Registrar

open Sip Registry Defer Defer.Body

/-- What a handler has done so far: the registry, the ids it was written under, and the responses sent. -/
structure Handling (ρ : Type) where
  registry : ρ
  writes : List String := []
  responses : List Response := []

/-- The handler defers nothing. Its result is `Ended`: a call of the registry that does not return ends it too. -/
abbrev Code (ρ result α : Type) := Body (Handling ρ) Empty result α

def noDefer {ρ : Type} : Interp (Handling ρ) Empty := fun d => d.elim

instance : Inhabited Ended := ⟨.returned⟩

section Code

variable {ρ : Type}

def Handling.respond (s : Handling ρ) (res : Response) : Handling ρ := { s with responses := s.responses ++ [res] }

/-- A call of the registry that was made for an id. -/
def Handling.write (s : Handling ρ) (m : ρ) (id : String) : Handling ρ :=
  { s with registry := m, writes := s.writes ++ [id] }

def respond {result : Type} (res : Response) : Code ρ result Unit := .update (·.respond res)

/-- A response, and a return of `a`. -/
def respondAndReturn {result α : Type} (res : Response) (a : result) : Code ρ result α := do
  respond res
  .ret a

def authorizeRegisterBody (auth : Authenticators) (req : Request) (user : String) (expiry : Int) : Code ρ Bool Bool :=
  match requestToken req with
  | some token => match auth.bearerStore with
    | none => respondAndReturn ⟨503, "Service Unavailable", []⟩ false
    | some userAuthenticateBearer => match userAuthenticateBearer ⟨user, token, "REGISTER"⟩ with
      | .error _ => respondAndReturn ⟨401, "Unauthorized", []⟩ false
      | .ok () => pure true
  | none => match auth.digestStore with
    | none => respondAndReturn notFound false
    | some userReadDigestAuth => match userReadDigestAuth user { realm := "diagox" } with
      | none => respondAndReturn notFound false
      | some found => match authorizeDigest auth req (fillDigestAuth user expiry found) with
        -- the status of the response is read
        | (none, _) => .panic
        | (some res, some _) => respondAndReturn res false
        | (some res, none) => if res.statusCode ≠ 200 then respondAndReturn res false else pure true

/-- The loop that parses the Contact headers. -/
def readContacts (deps : Deps) : List Header → Code ρ Ended (List ContactHeader)
  | [] => pure []
  | .contact h :: headers => do return h :: (← readContacts deps headers)
  | .other name value :: headers => match deps.parserContact name value with
    | none => respondAndReturn ⟨400, "Bad Request - Contact header malformed", []⟩ .returned
    | some (.contact h) => do return h :: (← readContacts deps headers)
    | some (.other _ _) => .panic

/-- The loop over the parsed contacts, with the contacts kept so far and the interval so far. -/
def keepContactsLoop (deps : Deps) : List ContactHeader → List Uri → Int → Code ρ Ended (List Uri × Int)
  | [], contacts, expiry => pure (contacts, expiry)
  | h :: hdrs, contacts, expiry =>
      if contactExpires h = "0" then keepContactsLoop deps hdrs contacts expiry
      else if contactExpires h = "" then keepContactsLoop deps hdrs (contacts ++ [h.address]) expiry
      else match deps.parseDuration (contactExpires h ++ "s") with
        | none => respondAndReturn ⟨400, "Bad Request - Expires header in contact malformed", []⟩ .returned
        | some exp => keepContactsLoop deps hdrs (contacts ++ [h.address]) (min expiry exp)

/-- A call of the registry under an id: whether it has reported no error. -/
def callRegistry (id : String) (operation : ρ → Option (ρ × Except RegistryError Unit)) : Code ρ Ended Bool := do
  match operation (← .read (·.registry)) with
  | none => .ret .blocked
  | some (m, result) => do
      .update (·.write m id)
      pure (match result with | .ok () => true | .error _ => false)

variable (deps : Deps) (auth : Authenticators) (store : RegistryStore ρ) (hostname : String)

/-- What follows on the authorization. -/
def bindContacts (req : Request) (checked : Checked) : Code ρ Ended Ended := do
  let hdrs ← readContacts deps req.contacts
  let regId := createRegId checked.aor.user hostname
  if checked.expiry = 0 ∧ isWildcard hdrs then do
    -- an error of the registry is only logged
    let _ ← callRegistry regId fun m => store.registerBindingDelete m regId
    respondAndReturn ⟨200, "OK", []⟩ .returned
  else do
    let (contacts, expiry) ← keepContactsLoop deps hdrs [] checked.expiry
    if expiry < minExpiry then
      respondAndReturn ⟨423, "Interval Too Brief", [.other "Min-Expires" "30"]⟩ .returned
    else do
      let binding : RegisterBinding (List Uri) :=
        { aor := checked.aor
          callID := deps.callIDString checked.callID
          contacts := contacts
          expiry := expiry
          sourceAddr := req.source
          transport := req.transport }
      if ← callRegistry regId fun m => store.registerBindingSet m regId binding then
        respondAndReturn (registered hdrs binding) .returned
      else respondAndReturn ⟨500, "Internal Server Error", []⟩ .returned

def registerHandlerBody (req : Request) : Code ρ Ended Ended :=
  match req.hasVia, req.callID, req.fromAddress, req.toAddress with
  | true, some callID, some fromAddress, some aor =>
      if hostname ≠ "" ∧ req.recipient.host ≠ hostname then respondAndReturn ⟨403, "Forbidden", []⟩ .returned
      else if req.contacts = [] then respondAndReturn ⟨400, "Bad Request - Contact header missing", []⟩ .returned
      else match requestedExpiry deps req with
        | none => respondAndReturn ⟨400, "Bad Request - Expires header malformed", []⟩ .returned
        | some expiry => do
            if ← .call noDefer (authorizeRegisterBody auth req fromAddress.user expiry) then
              bindContacts deps store hostname req ⟨callID, fromAddress, aor, expiry⟩
            else pure .returned
  | _, _, _, _ => respondAndReturn ⟨400, "Bad Request", []⟩ .returned

end Code

/-! ### What each part comes to -/

section Parts

variable {ρ α β : Type} {f : Frame (Handling ρ) Empty} {E : Exit Ended → Frame (Handling ρ) Empty → Prop}

/-- A part of the handler goes on with what a decision gives, or leaves with its rejection. -/
def Follows (f : Frame (Handling ρ) Empty) (Q : α → Frame (Handling ρ) Empty → Prop)
    (E : Exit Ended → Frame (Handling ρ) Empty → Prop) : Except Rejection α → Prop
  | .ok a => Q a f
  | .error (.responds res) => E (.returned .returned) { f with vars := f.vars.respond res }
  | .error .panics => E .panicked f

theorem follows_bind {Q : β → Frame (Handling ρ) Empty → Prop} (d : Except Rejection α) (k : α → Except Rejection β) :
    Follows f Q E (d >>= k) ↔ Follows f (fun a f' => Follows f' Q E (k a)) E d := by
  cases d with
  | ok a => rfl
  | error rejection => cases rejection <;> rfl

theorem meets_readContacts {deps : Deps} {headers : List Header}
    {Q : List ContactHeader → Frame (Handling ρ) Empty → Prop} :
    (readContacts deps headers : Code ρ Ended _).Meets f Q E ↔ Follows f Q E (headers.mapM (readContact deps)) := by
  induction headers generalizing Q with
  | nil => rfl
  | cons header headers ih =>
      rw [List.mapM_cons, follows_bind]
      cases header with
      | contact h =>
          unfold readContacts
          rw [meets_bind, ih]
          exact (follows_bind (headers.mapM (readContact deps)) fun hdrs => pure (h :: hdrs)).symm
      | other name value =>
          unfold readContacts
          cases hparse : deps.parserContact name value with
          | none =>
              simp only [readContact, hparse]
              rfl
          | some parsed =>
              cases parsed with
              | contact h =>
                  simp only [readContact, hparse]
                  rw [meets_bind, ih]
                  exact (follows_bind (headers.mapM (readContact deps)) fun hdrs => pure (h :: hdrs)).symm
              | other name' value' =>
                  simp only [readContact, hparse]
                  rfl

theorem meets_keepContactsLoop {deps : Deps} {hdrs : List ContactHeader} {contacts : List Uri} {expiry : Int}
    {Q : List Uri × Int → Frame (Handling ρ) Empty → Prop} :
    (keepContactsLoop deps hdrs contacts expiry : Code ρ Ended _).Meets f Q E ↔
      Follows f (fun kept => Q (contacts ++ kept.1, kept.2)) E (keepContacts deps expiry hdrs) := by
  induction hdrs generalizing contacts expiry with
  | nil =>
      show Q (contacts, expiry) f ↔ Q (contacts ++ [], expiry) f
      rw [List.append_nil]
  | cons h hdrs ih =>
      unfold keepContactsLoop keepContacts
      split_ifs with hzero hempty
      · exact ih
      · rw [ih, follows_bind]
        simp only [List.append_assoc, List.singleton_append]
        rfl
      · cases hexp : deps.parseDuration (contactExpires h ++ "s") with
        | none => rfl
        | some exp =>
            simp only
            rw [ih, follows_bind]
            simp only [List.append_assoc, List.singleton_append]
            rfl

/-- The helper has sent its response when it refuses. -/
def Verdict.Follows (f : Frame (Handling ρ) Empty) (Q : Bool → Frame (Handling ρ) Empty → Prop)
    (E : Exit Ended → Frame (Handling ρ) Empty → Prop) : Verdict → Prop
  | .accepted _ => Q true f
  | .refused res => Q false { f with vars := f.vars.respond res }
  | .panicked => E .panicked f

theorem meets_authorizeRegisterBody {auth : Authenticators} {req : Request} {user : String} {expiry : Int}
    {Q : Bool → Frame (Handling ρ) Empty → Prop} :
    (call noDefer (authorizeRegisterBody auth req user expiry) : Code ρ Ended Bool).Meets f Q E ↔
      (authorizeRegister auth req user expiry).Follows f Q E := by
  rw [meets_call]
  unfold authorizeRegisterBody authorizeRegister
  cases requestToken req with
  | some token =>
      cases auth.bearerStore with
      | none => rfl
      | some store =>
          simp only
          cases store ⟨user, token, "REGISTER"⟩ <;> rfl
  | none =>
      cases auth.digestStore with
      | none => rfl
      | some store =>
          simp only
          cases store user { realm := "diagox" } with
          | none => rfl
          | some found =>
              simp only
              obtain ⟨_ | res, _ | err⟩ := authorizeDigest auth req (fillDigestAuth user expiry found)
              · rfl
              · rfl
              · simp only
                split_ifs <;> rfl
              · rfl

/-- The handler goes on with whether a call of the registry has reported no error. -/
def Called (id : String) (f : Frame (Handling ρ) Empty) (Q : Bool → Frame (Handling ρ) Empty → Prop)
    (E : Exit Ended → Frame (Handling ρ) Empty → Prop) : Option (ρ × Except RegistryError Unit) → Prop
  | none => E (.returned .blocked) f
  | some (m, .ok ()) => Q true { f with vars := f.vars.write m id }
  | some (m, .error _) => Q false { f with vars := f.vars.write m id }

theorem meets_callRegistry {id : String} {operation : ρ → Option (ρ × Except RegistryError Unit)}
    {Q : Bool → Frame (Handling ρ) Empty → Prop} :
    (callRegistry id operation).Meets f Q E ↔ Called id f Q E (operation f.vars.registry) := by
  unfold callRegistry
  rw [meets_bind, meets_read]
  rcases operation f.vars.registry with _ | ⟨m, _ | _⟩ <;> rfl

end Parts

/-! ### What the handler comes to -/

def Ended.exit : Ended → Exit Ended
  | .panicked => .panicked
  | ended => .returned ended

/-- The handler ends as `o` says, and has called the registry under the id of the To user if it has called it. -/
structure Reaches {ρ : Type} (hostname : String) (m : ρ) (req : Request) (o : Outcome ρ) (e : Exit Ended)
    (f : Frame (Handling ρ) Empty) : Prop where
  exit : e = o.ended.exit
  registry : f.vars.registry = o.registry
  responses : f.vars.responses = o.responses
  writes : f.vars.writes = [] ∧ o.registry = m ∨
    ∃ aor, req.toAddress = some aor ∧ f.vars.writes = [createRegId aor.user hostname]

section Reaches

variable {ρ : Type} {deps : Deps} {auth : Authenticators} {store : RegistryStore ρ} {hostname : String} {m : ρ}
variable {req : Request}

theorem reaches_rejection (rejection : Rejection) (accepted : Option Credential) {α : Type}
    {Q : α → Frame (Handling ρ) Empty → Prop} :
    Follows ⟨[], ⟨m, [], []⟩⟩ Q (Reaches hostname m req (rejection.outcome m accepted)) (.error rejection) := by
  cases rejection with
  | responds res => exact ⟨rfl, rfl, rfl, .inl ⟨rfl, rfl⟩⟩
  | panics => exact ⟨rfl, rfl, rfl, .inl ⟨rfl, rfl⟩⟩

theorem reaches_blocked (c : Credential) :
    Reaches hostname m req { registry := m, accepted := some c, ended := .blocked } (.returned .blocked)
      ⟨[], ⟨m, [], []⟩⟩ := ⟨rfl, rfl, rfl, .inl ⟨rfl, rfl⟩⟩

theorem reaches_written {aor : Uri} (hto : req.toAddress = some aor) (m' : ρ) (c : Credential) (res : Response) :
    Reaches hostname m req { registry := m', responses := [res], accepted := some c } (.returned .returned)
      ⟨[], ⟨m', [createRegId aor.user hostname], [res]⟩⟩ := ⟨rfl, rfl, rfl, .inr ⟨aor, hto, rfl⟩⟩

/-- The outcome once a request is authorized. -/
def boundOutcome (store : RegistryStore ρ) (m : ρ) (c : Credential) (regId : String) :
    Except Rejection Update → Outcome ρ
  | .error rejection => rejection.outcome m (some c)
  | .ok update => applyUpdate store m c regId update

theorem meets_bindContacts {checked : Checked} (hto : req.toAddress = some checked.aor) (c : Credential)
    {decision : Except Rejection Update} (h : contactUpdate deps req checked = decision) :
    let P := Reaches hostname m req (boundOutcome store m c (createRegId checked.aor.user hostname) decision)
    (bindContacts deps store hostname req checked).Meets ⟨[], ⟨m, [], []⟩⟩ (fun e => P (.returned e)) P := by
  intro P
  unfold bindContacts
  rw [meets_bind, meets_readContacts]
  unfold contactUpdate at h
  cases hread : req.contacts.mapM (readContact deps) with
  | error rejection =>
      obtain rfl : .error rejection = decision := by simpa only [hread, bind, Except.bind] using h
      exact reaches_rejection rejection (some c)
  | ok hdrs =>
      simp only [hread, bind, Except.bind] at h
      apply meets_ite
      · intro hwild
        rw [if_pos hwild] at h
        obtain rfl : .ok .delete = decision := h
        rw [meets_bind, meets_callRegistry]
        show Called _ _ _ _ (store.registerBindingDelete m (createRegId checked.aor.user hostname))
        simp only [P, boundOutcome, applyUpdate]
        obtain _ | ⟨m', _ | _⟩ := store.registerBindingDelete m (createRegId checked.aor.user hostname)
        · exact reaches_blocked c
        · exact reaches_written hto m' c _
        · exact reaches_written hto m' c _
      · intro hwild
        rw [if_neg hwild] at h
        rw [meets_bind, meets_keepContactsLoop]
        cases hkeep : keepContacts deps checked.expiry hdrs with
        | error rejection =>
            obtain rfl : .error rejection = decision := by simpa only [hkeep] using h
            exact reaches_rejection rejection (some c)
        | ok kept =>
            simp only [hkeep] at h
            apply meets_ite
            · intro hbrief
              rw [if_pos hbrief] at h
              obtain rfl : .error (rejectWith 423 "Interval Too Brief" [.other "Min-Expires" "30"]) = decision := h
              exact reaches_rejection (rejectWith 423 "Interval Too Brief" [.other "Min-Expires" "30"]) (some c)
                (Q := fun (e : Ended) => P (.returned e))
            · intro hbrief
              rw [if_neg hbrief] at h
              obtain rfl := h
              rw [meets_bind, meets_callRegistry]
              let binding : RegisterBinding (List Uri) :=
                ⟨checked.aor, deps.callIDString checked.callID, kept.1, kept.2, "", req.source, req.transport⟩
              show Called _ _ _ _ (store.registerBindingSet m (createRegId checked.aor.user hostname) binding)
              have ho : P = Reaches hostname m req
                  (applyUpdate store m c (createRegId checked.aor.user hostname) (.set hdrs binding)) := rfl
              rw [ho, applyUpdate]
              obtain _ | ⟨m', _ | _⟩ := store.registerBindingSet m (createRegId checked.aor.user hostname) binding
              · exact reaches_blocked c
              · exact reaches_written hto m' c _
              · exact reaches_written hto m' c _

theorem reaches_checkRegister {rejection : Rejection} (hcheck : checkRegister deps hostname req = .error rejection)
    {α : Type} {Q : α → Frame (Handling ρ) Empty → Prop} :
    Follows ⟨[], ⟨m, [], []⟩⟩ Q (Reaches hostname m req (registerHandler deps auth store hostname m req))
      (.error rejection) := by
  have ho : registerHandler deps auth store hostname m req = rejection.outcome m none := by
    simp only [registerHandler, hcheck]
  rw [ho]
  exact reaches_rejection rejection none

theorem meets_registerHandlerBody :
    let P := Reaches hostname m req (registerHandler deps auth store hostname m req)
    (registerHandlerBody deps auth store hostname req).Meets ⟨[], ⟨m, [], []⟩⟩ (fun e => P (.returned e)) P := by
  intro P
  let Q := fun (e : Ended) => P (.returned e)
  unfold registerHandlerBody
  split
  · next callID fromAddress aor hvia hcallID hfrom hto =>
    have hcheck := checkRegister_of_headers deps hostname hvia hcallID hfrom hto
    apply meets_ite
    · intro hdomain
      rw [if_pos hdomain] at hcheck
      exact reaches_checkRegister hcheck (Q := Q)
    · intro hdomain
      rw [if_neg hdomain] at hcheck
      apply meets_ite
      · intro hcontacts
        rw [if_pos hcontacts] at hcheck
        exact reaches_checkRegister hcheck (Q := Q)
      · intro hcontacts
        rw [if_neg hcontacts] at hcheck
        cases hexpiry : requestedExpiry deps req with
        | none =>
            simp only [hexpiry] at hcheck
            exact reaches_checkRegister hcheck (Q := Q)
        | some expiry =>
            simp only [hexpiry] at hcheck
            show (call noDefer _ >>= _ : Code ρ Ended Ended).Meets _ _ _
            rw [meets_bind, meets_authorizeRegisterBody]
            cases hauth : authorizeRegister auth req fromAddress.user expiry with
            | panicked =>
                have ho : registerHandler deps auth store hostname m req = { registry := m, ended := .panicked } := by
                  simp only [registerHandler, hcheck, hauth]
                simp only [P, ho]
                exact ⟨rfl, rfl, rfl, .inl ⟨rfl, rfl⟩⟩
            | refused res =>
                have ho : registerHandler deps auth store hostname m req = { registry := m, responses := [res] } := by
                  simp only [registerHandler, hcheck, hauth]
                simp only [P, ho]
                exact ⟨rfl, rfl, rfl, .inl ⟨rfl, rfl⟩⟩
            | accepted c =>
                have ho : registerHandler deps auth store hostname m req =
                    boundOutcome store m c (createRegId aor.user hostname)
                      (contactUpdate deps req ⟨callID, fromAddress, aor, expiry⟩) := by
                  cases hupdate : contactUpdate deps req ⟨callID, fromAddress, aor, expiry⟩ with
                  | error rejection => simp only [registerHandler, hcheck, hauth, hupdate, boundOutcome]
                  | ok update => simp only [registerHandler, hcheck, hauth, hupdate, boundOutcome]
                simp only [P, ho]
                exact meets_bindContacts hto c rfl
  · next hmissing =>
    have hcheck : checkRegister deps hostname req = .error (rejectWith 400 "Bad Request") := by
      unfold checkRegister
      split
      · next hvia hcallID hfrom hto => exact absurd hto (hmissing _ _ _ hvia hcallID hfrom)
      · rfl
    exact reaches_checkRegister hcheck (Q := Q)

theorem run_noDefer {b : Code ρ Ended Ended} {s : Handling ρ} {P : Exit Ended → Frame (Handling ρ) Empty → Prop}
    (h : b.Meets ⟨[], s⟩ (fun e => P (.returned e)) P) : ∃ e f, P e f ∧ run noDefer b s = (e, f.vars) := by
  obtain ⟨e, ⟨ds, vars⟩, hP, hrun⟩ := run_of_meets h
  refine ⟨e, ⟨ds, vars⟩, hP, hrun.trans ?_⟩
  cases ds with
  | nil => rw [unwind_nil, Exit.after_isPanic]
  | cons d ds => exact d.elim

/-- A run of the handler ends as the decisions say, with their registry and their responses. The registry was
called under the id of the To user, once, or it was not called. -/
theorem run_registerHandlerBody (deps : Deps) (auth : Authenticators) (store : RegistryStore ρ) (hostname : String)
    (m : ρ) (req : Request) :
    let o := registerHandler deps auth store hostname m req
    ∃ writes, run noDefer (registerHandlerBody deps auth store hostname req) { registry := m } =
        (o.ended.exit, ⟨o.registry, writes, o.responses⟩) ∧
      (writes = [] ∧ o.registry = m ∨
        ∃ aor, req.toAddress = some aor ∧ writes = [createRegId aor.user hostname]) := by
  intro o
  have hmeets : (registerHandlerBody deps auth store hostname req).Meets ⟨[], ⟨m, [], []⟩⟩
      (fun e => Reaches hostname m req o (.returned e)) (Reaches hostname m req o) := meets_registerHandlerBody
  obtain ⟨e, f, ⟨rfl, hregistry, hresponses, hwrites⟩, hrun⟩ := run_noDefer hmeets
  refine ⟨f.vars.writes, ?_, hwrites⟩
  rw [hrun, ← hregistry, ← hresponses]

end Reaches

/-! ### One response -/

/-- The digest server always has a response, and not a 200 one along with an error. -/
structure Authenticators.Responds (auth : Authenticators) : Prop where
  responds : ∀ req userAuth, (auth.authorizeRequest req userAuth).1 ≠ none
  refuses : auth.ErrorsRefuse

/-- The parser for Contact headers makes Contact headers. -/
def ParsesContacts (deps : Deps) : Prop :=
  ∀ name value header, deps.parserContact name value = some header → ∃ h, header = .contact h

/-- A handler that has returned with one response, and with the registry as it was unless the response is 200. -/
structure Answered {ρ : Type} (m : ρ) (o : Outcome ρ) : Prop where
  returned : o.ended = .returned
  response : ∃ res, o.responses = [res] ∧ (res.statusCode ≠ 200 → o.registry = m)

section Answered

variable {ρ : Type} {deps : Deps} {auth : Authenticators} {store : RegistryStore ρ} {m : ρ}

theorem authorizeDigest_responds (hauth : auth.Responds) (req : Request) (userAuth : DigestAuth) :
    (authorizeDigest auth req userAuth).1 ≠ none := by
  unfold authorizeDigest
  split
  · exact hauth.responds _ _
  · exact hauth.responds _ _

theorem authorizeRegister_ne_panicked (hauth : auth.Responds) (req : Request) (user : String) (expiry : Int) :
    authorizeRegister auth req user expiry ≠ .panicked := by
  intro h
  unfold authorizeRegister at h
  split at h
  · split at h
    · cases h
    · split at h <;> cases h
  · split at h
    · cases h
    · split at h
      · cases h
      · next found hfound =>
        have hresponds := authorizeDigest_responds hauth req (fillDigestAuth user expiry found)
        simp only at h
        split at h
        · next hnone => exact hresponds (by rw [hnone])
        · cases h
        · split_ifs at h

theorem answered_rejection (hparser : ParsesContacts deps) {rejection : Rejection} (h : rejection.Expected deps)
    (accepted : Option Credential) : Answered m (rejection.outcome m accepted) := by
  cases rejection with
  | responds res => exact ⟨rfl, res, rfl, fun _ => rfl⟩
  | panics =>
      obtain ⟨name, value, name', value', hparse⟩ := h
      obtain ⟨c, hc⟩ := hparser _ _ _ hparse
      cases hc

theorem answered_applyUpdate (hstore : store.Reliable m) (c : Credential) (regId : String) (update : Update) :
    Answered m (applyUpdate store m c regId update) := by
  cases update with
  | delete =>
      unfold applyUpdate
      rcases hdelete : store.registerBindingDelete m regId with _ | ⟨m', result⟩
      · exact absurd hdelete (hstore.delete_returns regId)
      · exact ⟨rfl, _, rfl, fun h => absurd rfl h⟩
  | set hdrs binding =>
      unfold applyUpdate
      rcases hset : store.registerBindingSet m regId binding with _ | ⟨m', err | _⟩
      · exact absurd hset (hstore.set_returns regId binding)
      · simp only [hset]
        exact ⟨rfl, _, rfl, fun _ => hstore.set_failed regId binding m' err hset⟩
      · simp only [hset]
        exact ⟨rfl, _, rfl, fun h => absurd rfl h⟩

theorem answered_registerHandler (hparser : ParsesContacts deps) (hauth : auth.Responds) (hstore : store.Reliable m)
    (hostname : String) (req : Request) : Answered m (registerHandler deps auth store hostname m req) := by
  unfold registerHandler
  cases hcheck : checkRegister deps hostname req with
  | error rejection => exact answered_rejection hparser (checkRegister_error hcheck) none
  | ok checked =>
      cases hverdict : authorizeRegister auth req checked.fromAddress.user checked.expiry with
      | panicked => exact absurd hverdict (authorizeRegister_ne_panicked hauth _ _ _)
      | refused res =>
          simp only [hverdict]
          exact ⟨rfl, res, rfl, fun _ => rfl⟩
      | accepted c =>
          simp only [hverdict]
          cases hupdate : contactUpdate deps req checked with
          | error rejection => exact answered_rejection hparser (contactUpdate_error hupdate) (some c)
          | ok update => exact answered_applyUpdate hstore c _ update

end Answered

/-- Whatever the request, the registry and the answers of the stores, the handler returns, it has sent one
response, and it has called the registry at most once, under the id of the To user. Without a 200 response the
registry is as it was. -/
theorem registerHandler_answers_once {ρ : Type} {deps : Deps} (hparser : ParsesContacts deps) {auth : Authenticators}
    (hauth : auth.Responds) {store : RegistryStore ρ} {m : ρ} (hstore : store.Reliable m) (hostname : String)
    (req : Request) :
    let after := run noDefer (registerHandlerBody deps auth store hostname req) { registry := m }
    after.1 = .returned .returned ∧
      (∃ res, after.2.responses = [res] ∧ (res.statusCode ≠ 200 → after.2.registry = m)) ∧
      after.2.writes.length ≤ 1 ∧
      ∀ id ∈ after.2.writes, ∃ aor, req.toAddress = some aor ∧ id = createRegId aor.user hostname := by
  intro after
  obtain ⟨writes, hrun, hwrites⟩ := run_registerHandlerBody deps auth store hostname m req
  obtain ⟨hended, hresponse⟩ := answered_registerHandler hparser hauth hstore hostname req
  have hafter : after = _ := hrun
  rw [hafter, hended]
  refine ⟨rfl, hresponse, ?_⟩
  obtain ⟨rfl, -⟩ | ⟨aor, haor, rfl⟩ := hwrites
  · exact ⟨by simp, by simp⟩
  · exact ⟨by simp, fun id hid => ⟨aor, haor, List.mem_singleton.mp hid⟩⟩

/-- Authenticators that take every token, and challenge a request without one. -/
def challenging : Authenticators where
  bearerStore := some fun _ => .ok ()
  authorizeRequest _ _ := (some ⟨401, "Unathorized", []⟩, none)

theorem challenging_responds : challenging.Responds where
  responds req userAuth h := by cases h
  refuses req userAuth res err h := by cases h

theorem plainDeps_parsesContacts : ParsesContacts plainDeps := by
  intro name value header h
  cases h

theorem registerHandler_answers_once_alice :
    let after := run noDefer (registerHandlerBody plainDeps challenging memoryStore "pbx" (bindRequest "pbx" "alice"))
      { registry := RegistryMemory.new }
    after.1 = .returned .returned ∧
      (∃ res, after.2.responses = [res] ∧ (res.statusCode ≠ 200 → after.2.registry = RegistryMemory.new)) ∧
      after.2.writes.length ≤ 1 ∧
      ∀ id ∈ after.2.writes, ∃ aor, (bindRequest "pbx" "alice").toAddress = some aor ∧
        id = createRegId aor.user "pbx" :=
  registerHandler_answers_once plainDeps_parsesContacts challenging_responds
    (lawful_memoryStore RegistryMemory.sound_new).toReliable "pbx" (bindRequest "pbx" "alice")

end Registrar
