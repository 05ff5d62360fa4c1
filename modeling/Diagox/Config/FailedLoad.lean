import Diagox.Routing.Router

/-!
# A load that fails

`ConfigLoad` of `config.go` decodes into the configuration it is given, and fills in defaults there before it has seen
every endpoint. Only the endpoint index is built aside. `main` logs the error and serves with what there is.
-/

namespace Configuration

open Sip Routing

/-- Two configurations are the same if their maps have the same values under their keys. A nil map reads as an empty
one. -/
structure Same (c c' : Config) : Prop where
  version : c.version = c'.version
  transports : ∀ tid, c.transports.lookup tid = c'.transports.lookup tid
  endpoints : ∀ name, c.endpoints.lookup name = c'.endpoints.lookup name
  routes : ∀ name, c.routes.lookup name = c'.routes.lookup name
  endpointOrder : c.endpointOrder = c'.endpointOrder
  endpointIndex : c.endpointIndex = c'.endpointIndex

theorem Same.refl (c : Config) : Same c c where
  version := rfl
  transports _ := rfl
  endpoints _ := rfl
  routes _ := rfl
  endpointOrder := rfl
  endpointIndex := rfl

/-- `main`: the configuration that is served with, from the built-in one. A file that cannot be opened, an error of the
load and one of the validation are logged. -/
def servedConfig (deps : Deps) (file : Option YamlDocument) (conf : Config) : Config :=
  match file with
  | none => conf
  | some doc => (configLoad deps doc conf).1

/-! ### What is left behind -/

/-- The endpoints that the loop has normalized before it stops. -/
def reached (deps : Deps) (endpoints : StringMap ConfigEndpoint) : List String :=
  (endpoints.entries.takeWhile fun x => (normalizeEndpoint deps x.1 x.2).isOk).keys

def normalized (deps : Deps) (name : String) (e : ConfigEndpoint) : ConfigEndpoint :=
  (normalizeEndpoint deps name e).toOption.getD e

/-- The default context: the one there is, or the built-in one. -/
def defaultContext (routes : StringMap (Option (List ConfigRoute))) : List ConfigRoute :=
  match routes.lookup "default" with
  | some (some routes) => routes
  | _ => [defaultRoute]

section Left

variable (deps : Deps)

theorem dlookup_normalizeEntries (entries : List (Σ _ : String, ConfigEndpoint)) (name : String) :
    (normalizeEntries deps entries).1.dlookup name = (entries.dlookup name).map fun e =>
      if name ∈ (entries.takeWhile fun x => (normalizeEndpoint deps x.1 x.2).isOk).keys then normalized deps name e
      else e := by
  induction entries with
  | nil => rfl
  | cons x rest ih =>
      obtain ⟨key, e⟩ := x
      rw [normalizeEntries]
      cases he : normalizeEndpoint deps key e with
      | error err =>
          rw [List.takeWhile_cons_of_neg (by simp [he, Except.isOk, Except.toBool])]
          simp
      | ok e' =>
          rw [List.takeWhile_cons_of_pos (by simp [he, Except.isOk, Except.toBool])]
          obtain rfl | hne := eq_or_ne name key
          · simp [normalized, he, Except.toOption]
          · rw [List.dlookup_cons_ne _ _ hne, List.dlookup_cons_ne _ _ hne, ih]
            simp only [List.keys_cons, List.mem_cons, hne, false_or]

theorem lookup_normalizeEndpoints (endpoints : StringMap ConfigEndpoint) (name : String) :
    (normalizeEndpoints deps endpoints).1.lookup name = (endpoints.lookup name).map fun e =>
      if name ∈ reached deps endpoints then normalized deps name e else e :=
  dlookup_normalizeEntries deps endpoints.entries name

theorem lookup_withDefaultRoute (routes : StringMap (Option (List ConfigRoute))) (name : String) :
    (withDefaultRoute routes).lookup name =
      if name = "default" then some (some (defaultContext routes)) else routes.lookup name := by
  unfold withDefaultRoute defaultContext
  split_ifs with hname
  · subst hname
    split <;> simp_all
  · split
    · rfl
    · exact AList.lookup_insert_ne hname

/-- What decoding leaves of the configuration, and the load of it once it has failed. -/
theorem configLoad_failed {doc : YamlDocument} {c d : Config} (hparse : doc.parseError = none)
    (hdecode : doc.decode c = (d, none)) (h : (configLoad deps doc c).2 ≠ none) :
    (configLoad deps doc c).1 =
      { d with
        endpointOrder := doc.endpointKeys
        routes := withDefaultRoute d.routes
        endpoints := (normalizeEndpoints deps d.endpoints).1 } := by
  unfold configLoad at h ⊢
  simp only [hparse, hdecode] at h ⊢
  rcases hnormal : normalizeEndpoints deps d.endpoints with ⟨endpoints, _ | err⟩
  · simp only [hnormal] at h ⊢
    cases hindex : buildEndpointIndex endpoints doc.endpointKeys with
    | error err => rfl
    | ok index => simp [hindex] at h
  · rfl

/-- A document that is decoded without an error, and of which the configuration has everything already that is written
to it before the load fails: each endpoint in the form that the loop has left it in. -/
structure NothingNew (doc : YamlDocument) (c : Config) : Prop where
  version : (doc.decode c).1.version = c.version
  transports : ∀ tid, (doc.decode c).1.transports.lookup tid = c.transports.lookup tid
  endpointIndex : (doc.decode c).1.endpointIndex = c.endpointIndex
  endpointOrder : doc.endpointKeys = c.endpointOrder
  defaultRoutes : c.routes.lookup "default" = some (some (defaultContext (doc.decode c).1.routes))
  routes : ∀ name, name ≠ "default" → (doc.decode c).1.routes.lookup name = c.routes.lookup name
  visited : ∀ name ∈ reached deps (doc.decode c).1.endpoints,
    c.endpoints.lookup name = ((doc.decode c).1.endpoints.lookup name).map (normalized deps name)
  others : ∀ name, name ∉ reached deps (doc.decode c).1.endpoints →
    c.endpoints.lookup name = (doc.decode c).1.endpoints.lookup name

variable {deps}

theorem same_iff_nothingNew {doc : YamlDocument} {c : Config} (hparse : doc.parseError = none)
    (hdecode : (doc.decode c).2 = none) (h : (configLoad deps doc c).2 ≠ none) :
    Same (configLoad deps doc c).1 c ↔ NothingNew deps doc c := by
  rw [configLoad_failed deps hparse (Prod.ext rfl hdecode) h]
  constructor
  · intro hsame
    have hroutes := fun name => (lookup_withDefaultRoute _ name).symm.trans (hsame.routes name)
    have hendpoints := fun name => (hsame.endpoints name).symm.trans (lookup_normalizeEndpoints deps _ name)
    refine ⟨hsame.version, hsame.transports, hsame.endpointIndex, hsame.endpointOrder, ?_, ?_, ?_, ?_⟩
    · rw [← hroutes, if_pos rfl]
    · intro name hname
      rw [← hroutes, if_neg hname]
    · intro name hname
      simp only [hendpoints, if_pos hname]
    · intro name hname
      simp only [hendpoints, if_neg hname, Option.map_id']
  · intro hnew
    refine ⟨hnew.version, hnew.transports, fun name => ?_, fun name => ?_, hnew.endpointOrder, hnew.endpointIndex⟩
    · rw [lookup_normalizeEndpoints]
      by_cases hname : name ∈ reached deps (doc.decode c).1.endpoints
      · simp only [if_pos hname, hnew.visited name hname]
      · simp only [if_neg hname, Option.map_id', hnew.others name hname]
    · rw [lookup_withDefaultRoute]
      split_ifs with hname
      · rw [hname, hnew.defaultRoutes]
      · exact hnew.routes name hname

/-- With a default context still to be written, nothing that fails after the decoding leaves the configuration. -/
theorem not_same_of_no_default {doc : YamlDocument} {c : Config} (hparse : doc.parseError = none)
    (hdecode : (doc.decode c).2 = none) (h : (configLoad deps doc c).2 ≠ none)
    (hdefault : c.routes.lookup "default" = none) : ¬ Same (configLoad deps doc c).1 c := by
  rw [same_iff_nothingNew hparse hdecode h]
  intro hnew
  have hnone := hnew.defaultRoutes
  rw [hdefault] at hnone
  cases hnone

end Left

/-- A load that fails leaves the configuration, and `main` serves with what it had, exactly when the document is none,
when decoding it fails and leaves the configuration, or when there is nothing new in it. -/
theorem configLoad_same_iff {deps : Deps} {doc : YamlDocument} {c : Config} {err : ConfigError}
    (h : (configLoad deps doc c).2 = some err) :
    Same (configLoad deps doc c).1 c ∧ Same (servedConfig deps (some doc) c) c ↔
      doc.parseError ≠ none ∨ (doc.decode c).2 ≠ none ∧ Same (doc.decode c).1 c ∨
        (doc.decode c).2 = none ∧ NothingNew deps doc c := by
  have hserved : servedConfig deps (some doc) c = (configLoad deps doc c).1 := rfl
  have hfailed : (configLoad deps doc c).2 ≠ none := by rw [h]; exact nofun
  rw [hserved, and_self_iff]
  cases hparse : doc.parseError with
  | some text =>
      have hleft : (configLoad deps doc c).1 = c := by simp [configLoad, hparse]
      rw [hleft]
      exact iff_of_true (.refl c) (.inl nofun)
  | none =>
      cases hdecode : (doc.decode c).2 with
      | some text =>
          have hpair : doc.decode c = ((doc.decode c).1, some text) := Prod.ext rfl hdecode
          have hleft : (configLoad deps doc c).1 = (doc.decode c).1 := by
            unfold configLoad
            rw [hparse, hpair]
          rw [hleft]
          simp
      | none => simp [same_iff_nothingNew hparse hdecode hfailed]

/-- The configuration that is built into `main`. -/
def builtinConfig : Config where
  transports := ⟨[⟨"udp", { transport := "udp", bind := "127.0.0.1", port := 5060 }⟩], by rw [List.NodupKeys]; decide⟩

/-- A carrier, and an endpoint with a malformed contact header. -/
def brokenEndpoints : StringMap ConfigEndpoint :=
  ⟨[⟨"carrier", { «match» := { type := "ip", values := ["10.0.0.1"] } }⟩, ⟨"bob", { contactHDR := "<" }⟩],
    by rw [List.NodupKeys]; decide⟩

def brokenDocument : YamlDocument where
  decode c := ({ c with endpoints := brokenEndpoints }, none)
  endpointKeys := ["carrier", "bob"]

/-- The document is new to the built-in configuration. Once it is loaded as far as it comes, it is not any more. -/
theorem configLoad_same_broken :
    ¬ NothingNew plainDeps brokenDocument builtinConfig ∧
      NothingNew plainDeps brokenDocument (configLoad plainDeps brokenDocument builtinConfig).1 := by
  have hfails : ∀ c, (configLoad plainDeps brokenDocument c).2 = some (.contactHeader "bob") := fun _ => rfl
  constructor
  · intro hnew
    have hsame := (configLoad_same_iff (hfails builtinConfig)).mpr (.inr (.inr ⟨rfl, hnew⟩))
    exact not_same_of_no_default rfl rfl (by rw [hfails]; exact nofun) rfl hsame.1
  · let again := (configLoad plainDeps brokenDocument builtinConfig).1
    have hagain : (configLoad plainDeps brokenDocument again).1 = again := rfl
    have hsame : Same (configLoad plainDeps brokenDocument again).1 again := by
      rw [hagain]
      exact .refl again
    obtain h | ⟨h, -⟩ | ⟨-, h⟩ := (configLoad_same_iff (hfails again)).mp ⟨hsame, hsame⟩
    · exact absurd rfl h
    · exact absurd rfl h
    · exact h

def carrierRequest : Request where
  fromAddress := some { user := "unknown" }
  source := "10.0.0.1:5060"
  transport := "UDP"

/-- The load fails at the second endpoint, and calls of the first one are admitted. -/
theorem not_configLoad_same :
    (¬ ∀ (deps : Deps) (doc : YamlDocument) (c : Config) (err : ConfigError), (configLoad deps doc c).2 = some err →
      Same (configLoad deps doc c).1 c) ∧
    (configLoad plainDeps brokenDocument builtinConfig).2 = some (.contactHeader "bob") ∧
    matchEndpoint plainDeps builtinConfig carrierRequest = .ok none ∧
    matchEndpoint plainDeps (servedConfig plainDeps (some brokenDocument) builtinConfig) carrierRequest =
      .ok (some { name := "carrier", route := "default", «match» := { type := "ip", values := ["10.0.0.1"] } }) := by
  have hfails : (configLoad plainDeps brokenDocument builtinConfig).2 = some (.contactHeader "bob") := by decide
  refine ⟨fun h => ?_, hfails, by decide, by decide⟩
  exact not_same_of_no_default rfl rfl (by rw [hfails]; exact nofun) rfl (h _ _ _ _ hfails)

end Configuration
