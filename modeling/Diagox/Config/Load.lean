import Diagox.Routing.Index

/-!
# Loading and validating a configuration

`ConfigLoad` and `Validate` of `config.go`. Loading writes into the configuration it is given, so it returns
one with an error too. What the YAML package makes of a document is a parameter: whether it parses, what
decoding it leaves in a configuration, and the keys of its `endpoints` mapping in their order.
-/

namespace Configuration

open Sip Routing

structure Config where
  version : String := ""
  transports : StringMap ConfigTransport := ∅
  endpoints : StringMap ConfigEndpoint := ∅
  /-- A nil list of routes is `none`. -/
  routes : StringMap (Option (List ConfigRoute)) := ∅
  endpointOrder : List String := []
  /-- `none` as long as it is not built. -/
  endpointIndex : Option EndpointIndex := none

/-- A document, as the YAML package reads it. -/
structure YamlDocument where
  parseError : Option String := none
  decode : Config → Config × Option String
  endpointKeys : List String := []

def defaultRoute : ConfigRoute := { id := "", «match» := "any", useRegistry := true }

/-- The routes with a default context that exists. -/
def withDefaultRoute (routes : StringMap (Option (List ConfigRoute))) : StringMap (Option (List ConfigRoute)) :=
  match routes.lookup "default" with
  | some (some _) => routes
  | _ => routes.insert "default" (some [defaultRoute])

/-- The defaults of one endpoint, and its contact header parsed. -/
def normalizeEndpoint (deps : Deps) (name : String) (e : ConfigEndpoint) : Except ConfigError ConfigEndpoint := do
  let e := if e.name = "" then { e with name := name } else e
  let e := if e.route = "" then { e with route := "default" } else e
  if e.contactHDR = "" then return e
  else match deps.parserContact "Contact" e.contactHDR with
    | none => throw (.contactHeader name)
    | some (.contact h) => return { e with contactHDRParsed := some h }
    | some (.other _ _) => throw (.notContact name)

/-- The loop over the endpoints, which writes each of them back under its name. It stops at the first one
whose contact header is malformed. -/
def normalizeEntries (deps : Deps) : List (Σ _ : String, ConfigEndpoint) →
    List (Σ _ : String, ConfigEndpoint) × Option ConfigError
  | [] => ([], none)
  | ⟨name, e⟩ :: rest => match normalizeEndpoint deps name e with
    | .error err => (⟨name, e⟩ :: rest, some err)
    | .ok e =>
        let (rest, err) := normalizeEntries deps rest
        (⟨name, e⟩ :: rest, err)

theorem keys_normalizeEntries (deps : Deps) (entries : List (Σ _ : String, ConfigEndpoint)) :
    (normalizeEntries deps entries).1.keys = entries.keys := by
  induction entries with
  | nil => rfl
  | cons x rest ih =>
      obtain ⟨name, e⟩ := x
      unfold normalizeEntries
      cases normalizeEndpoint deps name e with
      | error err => rfl
      | ok e => simpa using ih

def normalizeEndpoints (deps : Deps) (endpoints : StringMap ConfigEndpoint) :
    StringMap ConfigEndpoint × Option ConfigError :=
  (⟨(normalizeEntries deps endpoints.entries).1, by
      rw [List.NodupKeys, keys_normalizeEntries]
      exact endpoints.nodupKeys⟩,
    (normalizeEntries deps endpoints.entries).2)

def configLoad (deps : Deps) (doc : YamlDocument) (c : Config) : Config × Option ConfigError :=
  match doc.parseError with
  | some text => (c, some (.yaml text))
  | none => match doc.decode c with
    | (c, some text) => (c, some (.yaml text))
    | (c, none) =>
        let c := { c with endpointOrder := doc.endpointKeys, routes := withDefaultRoute c.routes }
        match normalizeEndpoints deps c.endpoints with
        | (endpoints, some err) => ({ c with endpoints := endpoints }, some err)
        | (endpoints, none) =>
            let c := { c with endpoints := endpoints }
            match buildEndpointIndex c.endpoints c.endpointOrder with
            | .error err => (c, some err)
            | .ok index => ({ c with endpointIndex := some index }, none)

theorem normalizeEntries_eq_map {deps : Deps} {entries : List (Σ _ : String, ConfigEndpoint)}
    (h : (normalizeEntries deps entries).2 = none) :
    (normalizeEntries deps entries).1 =
      entries.map fun x => ⟨x.1, (normalizeEndpoint deps x.1 x.2).toOption.getD x.2⟩ := by
  induction entries with
  | nil => rfl
  | cons x rest ih =>
      obtain ⟨name, e⟩ := x
      cases he : normalizeEndpoint deps name e with
      | error err => simp [normalizeEntries, he] at h
      | ok e' =>
          have hrest : (normalizeEntries deps rest).2 = none := by simpa [normalizeEntries, he] using h
          simp [normalizeEntries, he, ih hrest, Except.toOption]

/-- What a configuration that is loaded without an error holds: the routes of the document with a default context,
the endpoints, each of them normalized, and the index of these endpoints. -/
theorem configLoad_ok {deps : Deps} {doc : YamlDocument} {c conf : Config}
    (h : configLoad deps doc c = (conf, none)) :
    conf.endpointOrder = doc.endpointKeys ∧ conf.routes = withDefaultRoute (doc.decode c).1.routes ∧
      conf.endpoints.entries = (doc.decode c).1.endpoints.entries.map
        (fun x => ⟨x.1, (normalizeEndpoint deps x.1 x.2).toOption.getD x.2⟩) ∧
      ∃ index, conf.endpointIndex = some index ∧ buildEndpointIndex conf.endpoints conf.endpointOrder = .ok index := by
  unfold configLoad at h
  cases hparse : doc.parseError with
  | some text => simp [hparse] at h
  | none =>
      rcases hdecode : doc.decode c with ⟨decoded, err⟩
      cases err with
      | some text => simp [hparse, hdecode] at h
      | none =>
          simp only [hparse, hdecode] at h
          rcases hnormal : normalizeEndpoints deps decoded.endpoints with ⟨endpoints, err⟩
          cases err with
          | some err => simp [hnormal] at h
          | none =>
              simp only [hnormal] at h
              cases hindex : buildEndpointIndex endpoints doc.endpointKeys with
              | error err => simp [hindex] at h
              | ok index =>
                  simp only [hindex, Prod.mk.injEq, and_true] at h
                  subst h
                  refine ⟨rfl, rfl, ?_, index, rfl, hindex⟩
                  obtain ⟨hentries, hnone⟩ := Prod.mk.inj hnormal
                  rw [← normalizeEntries_eq_map hnone, ← hentries]

/-! ### Validation -/

/-- The checks of one endpoint: its auth type. -/
def validateAuthType (endName : String) (e : ConfigEndpoint) : Except ConfigError Unit :=
  if e.auth.authType = "" ∨ e.auth.authType = configAuthTypeDigest ∨ e.auth.authType = configAuthTypeBearer then
    .ok ()
  else .error (.authType endName e.auth.type)

def validateRoute (endpoints : StringMap ConfigEndpoint) (routeName : String) (r : ConfigRoute) :
    Except ConfigError Unit :=
  if r.useRegistry then
    if r.endpointName ≠ "" ∧ r.endpointName ∉ endpoints then
      .error (.endpointMissing routeName r.endpointName r.id)
    else .ok ()
  else if r.hangup.code > 0 then
    if r.endpointName ≠ "" then .error (.hangupEndpoint routeName r.endpointName) else .ok ()
  else if r.endpointName ∉ endpoints then .error (.endpointMissing routeName r.endpointName r.id)
  else .ok ()

def validate (c : Config) : Except ConfigError Unit := do
  c.endpoints.entries.forM fun x => validateAuthType x.1 x.2
  if (c.endpoints.entries.filter fun x => x.2.match.type = "user_dynamic").length > 1 then
    throw .dynamicUserEndpoints
  let _ ← buildEndpointIndex c.endpoints c.endpointOrder
  c.routes.entries.forM fun x => (x.2.getD []).forM (validateRoute c.endpoints x.1)
  c.endpoints.entries.forM fun x =>
    if x.2.route ∈ c.routes then pure () else throw (.routeMissing x.2.route x.1)

end Configuration
