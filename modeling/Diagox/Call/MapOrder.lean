import Diagox.Call.Handler
import Diagox.Config.Yaml
import Diagox.Routing.Default
import Diagox.Routing.References

/-!
# The order in which maps are visited

A map of Go is visited in another order on every start, and `ConfigLoad` and `Validate` visit the endpoints and the
route contexts of a configuration. The order of the endpoints comes from the document, so two starts with the same
document accept it alike, and when it is accepted they lead every call the same way. A load that fails stops at an
endpoint that depends on the order, so what it reports depends on it too, and so does what it leaves behind.
-/

namespace Call

open Configuration Sip Routing

/-- Two configurations that differ in the order of their maps at most. -/
structure SameMaps (c c' : Config) : Prop where
  version : c.version = c'.version
  transports : c.transports.entries.Perm c'.transports.entries
  endpoints : c.endpoints.entries.Perm c'.endpoints.entries
  routes : c.routes.entries.Perm c'.routes.entries
  endpointOrder : c.endpointOrder = c'.endpointOrder
  endpointIndex : c.endpointIndex = c'.endpointIndex

/-- Both succeed, or neither does. -/
def Alike {ε ε' : Type} (err : Option ε) (err' : Option ε') : Prop := err = none ↔ err' = none

section Load

variable {deps : Deps}

theorem lookup_perm {α : Type} {m m' : StringMap α} (h : m.entries.Perm m'.entries) (name : String) :
    m.lookup name = m'.lookup name := AList.perm_lookup h

theorem mem_perm {α : Type} {m m' : StringMap α} (h : m.entries.Perm m'.entries) (name : String) :
    name ∈ m ↔ name ∈ m' := by
  rw [← AList.lookup_isSome, ← AList.lookup_isSome, lookup_perm h]

theorem perm_withDefaultRoute {routes routes' : StringMap (Option (List ConfigRoute))}
    (h : routes.entries.Perm routes'.entries) :
    (withDefaultRoute routes).entries.Perm (withDefaultRoute routes').entries := by
  unfold withDefaultRoute
  rw [lookup_perm h]
  split
  · exact h
  · exact AList.perm_insert h

theorem normalizeEntries_ok_iff (entries : List (Σ _ : String, ConfigEndpoint)) :
    (normalizeEntries deps entries).2 = none ↔ ∀ x ∈ entries, ∃ e, normalizeEndpoint deps x.1 x.2 = .ok e := by
  induction entries with
  | nil => simp [normalizeEntries]
  | cons x rest ih =>
      obtain ⟨name, e⟩ := x
      cases he : normalizeEndpoint deps name e with
      | error err => simp [normalizeEntries, he]
      | ok e' => simp [normalizeEntries, he, ih]

theorem normalizeEndpoints_perm {endpoints endpoints' : StringMap ConfigEndpoint}
    (h : endpoints.entries.Perm endpoints'.entries) :
    Alike (normalizeEndpoints deps endpoints).2 (normalizeEndpoints deps endpoints').2 ∧
      ((normalizeEndpoints deps endpoints).2 = none →
        (normalizeEndpoints deps endpoints).1.entries.Perm (normalizeEndpoints deps endpoints').1.entries) := by
  have halike : Alike (normalizeEndpoints deps endpoints).2 (normalizeEndpoints deps endpoints').2 := by
    show (normalizeEntries deps _).2 = none ↔ (normalizeEntries deps _).2 = none
    rw [normalizeEntries_ok_iff, normalizeEntries_ok_iff]
    exact forall_congr' fun x => by rw [h.mem_iff]
  refine ⟨halike, fun hnone => ?_⟩
  show (normalizeEntries deps _).1.Perm (normalizeEntries deps _).1
  rw [normalizeEntries_eq_map hnone, normalizeEntries_eq_map (halike.mp hnone)]
  exact h.map _

/-- Two loads of one document succeed alike, and leave the same maps when they do. -/
theorem configLoad_mapOrder {doc doc' : YamlDocument} {c c' : Config} (hparse : doc.parseError = doc'.parseError)
    (hkeys : doc.endpointKeys = doc'.endpointKeys) (herr : (doc.decode c).2 = (doc'.decode c').2)
    (hdecode : SameMaps (doc.decode c).1 (doc'.decode c').1) :
    Alike (configLoad deps doc c).2 (configLoad deps doc' c').2 ∧
      ((configLoad deps doc c).2 = none → SameMaps (configLoad deps doc c).1 (configLoad deps doc' c').1) := by
  unfold configLoad
  rw [← hparse, ← hkeys]
  cases doc.parseError with
  | some text => simp [Alike]
  | none =>
      rcases hd : doc.decode c with ⟨d, err⟩
      rcases hd' : doc'.decode c' with ⟨d', err'⟩
      rw [hd, hd'] at herr hdecode
      obtain rfl : err = err' := herr
      cases err with
      | some text => simp [Alike]
      | none =>
          obtain ⟨halike, hperm⟩ := @normalizeEndpoints_perm deps _ _ hdecode.endpoints
          rcases hn : normalizeEndpoints deps d.endpoints with ⟨endpoints, failed⟩
          rcases hn' : normalizeEndpoints deps d'.endpoints with ⟨endpoints', failed'⟩
          rw [hn, hn'] at halike hperm
          cases failed with
          | some err =>
              cases failed' with
              | some err' => simp [Alike, hn, hn']
              | none => exact absurd (halike.mpr rfl) nofun
          | none =>
              obtain rfl : failed' = none := halike.mp rfl
              have hendpoints := hperm rfl
              simp only [hn, hn']
              rw [buildEndpointIndex_eq_of_perm hendpoints]
              cases buildEndpointIndex endpoints' doc.endpointKeys with
              | error err => simp [Alike]
              | ok index =>
                  exact ⟨Iff.rfl, fun _ => ⟨hdecode.version, hdecode.transports, hendpoints,
                    perm_withDefaultRoute hdecode.routes, rfl, rfl⟩⟩

/-- The endpoints have the order of the document when it names them itself, without an alias. -/
theorem inOrder_document {decode : YamlNode → Config → Config × Option String} {root : YamlNode} {c conf : Config}
    (hload : configLoad deps (root.document decode) c = (conf, none))
    (hnames : ∀ name, name ∈ yamlMappingKeys (some root) "endpoints" ↔ name ∈ (decode root c).1.endpoints) :
    inOrder conf = (yamlMappingKeys (some root) "endpoints").map (endpointAt conf.endpoints) := by
  obtain ⟨horder, -, hentries, -⟩ := configLoad_ok hload
  have hkeys : conf.endpoints.keys = (decode root c).1.endpoints.keys := by
    show conf.endpoints.entries.keys = (decode root c).1.endpoints.entries.keys
    rw [hentries, List.keys, List.map_map]
    rfl
  have horder' : conf.endpointOrder = yamlMappingKeys (some root) "endpoints" := horder
  rw [inOrder, horder', endpointNames_of_keys fun name => (hnames name).trans ?_]
  show name ∈ (decode root c).1.endpoints.keys ↔ name ∈ conf.endpoints.keys
  rw [hkeys]

end Load

section Validate

variable {conf conf' : Config}

/-- What an accepted configuration has passed. -/
theorem validate_eq_ok_iff : validate conf = .ok () ↔
    (∀ x ∈ conf.endpoints.entries, validateAuthType x.1 x.2 = .ok ()) ∧
      (conf.endpoints.entries.filter fun x => x.2.match.type = "user_dynamic").length ≤ 1 ∧
      (∃ index, buildEndpointIndex conf.endpoints conf.endpointOrder = .ok index) ∧
      (∀ x ∈ conf.routes.entries, ∀ r ∈ x.2.getD [], validateRoute conf.endpoints x.1 r = .ok ()) ∧
      ∀ x ∈ conf.endpoints.entries, x.2.route ∈ conf.routes := by
  have hexists : ∀ x : Σ _ : String, ConfigEndpoint,
      (if x.2.route ∈ conf.routes then pure () else throw (ConfigError.routeMissing x.2.route x.1) :
        Except ConfigError Unit) = .ok () ↔ x.2.route ∈ conf.routes := by
    intro x
    split_ifs with h
    · exact iff_of_true rfl h
    · exact iff_of_false nofun h
  unfold validate
  rw [bind_eq_ok]
  constructor
  · rintro ⟨_, hauth, h⟩
    split_ifs at h with hdynamic
    · obtain ⟨_, hthrow, -⟩ := bind_eq_ok.mp h
      cases hthrow
    · obtain ⟨index, hindex, h⟩ := bind_eq_ok.mp h
      obtain ⟨_, hroutes, h⟩ := bind_eq_ok.mp h
      exact ⟨forM_eq_ok.mp hauth, by omega, ⟨index, hindex⟩, fun x hx => forM_eq_ok.mp (forM_eq_ok.mp hroutes x hx),
        fun x hx => (hexists x).mp (forM_eq_ok.mp h x hx)⟩
  · rintro ⟨hauth, hdynamic, ⟨index, hindex⟩, hroutes, hcontexts⟩
    refine ⟨(), forM_eq_ok.mpr hauth, ?_⟩
    rw [if_neg (by omega)]
    refine bind_eq_ok.mpr ⟨index, hindex, bind_eq_ok.mpr ⟨(), ?_, ?_⟩⟩
    · exact forM_eq_ok.mpr fun x hx => forM_eq_ok.mpr (hroutes x hx)
    · exact forM_eq_ok.mpr fun x hx => (hexists x).mpr (hcontexts x hx)

theorem validateRoute_perm {endpoints endpoints' : StringMap ConfigEndpoint}
    (h : endpoints.entries.Perm endpoints'.entries) : validateRoute endpoints = validateRoute endpoints' := by
  funext routeName r
  simp only [validateRoute, mem_perm h]

theorem validate_mapOrder (h : SameMaps conf conf') : validate conf = .ok () ↔ validate conf' = .ok () := by
  rw [validate_eq_ok_iff, validate_eq_ok_iff, validateRoute_perm h.endpoints, (h.endpoints.filter _).length_eq,
    buildEndpointIndex_eq_of_perm h.endpoints, h.endpointOrder]
  refine and_congr (forall_congr' fun x => by rw [h.endpoints.mem_iff]) (and_congr_right fun _ => ?_)
  refine and_congr_right fun _ => and_congr (forall_congr' fun x => by rw [h.routes.mem_iff]) ?_
  refine forall_congr' fun x => ?_
  rw [h.endpoints.mem_iff, mem_perm h.routes]

end Validate

section Route

variable {deps : Deps} {conf conf' : Config}

theorem endpointIndex_mapOrder (h : SameMaps conf conf') : endpointIndex conf = endpointIndex conf' := by
  rw [endpointIndex, endpointIndex, h.endpointIndex, buildEndpointIndex_eq_of_perm h.endpoints, h.endpointOrder]

/-- The way to the bridge is the same. -/
theorem routeCall_sameMaps (h : SameMaps conf conf') (pbx : PBX) (rx : RouteExternals) (req : Request)
    (fromUser toUser : String) :
    routeCall deps { pbx with conf := conf } rx req fromUser toUser =
      routeCall deps { pbx with conf := conf' } rx req fromUser toUser := by
  have hmatch : matchEndpoint deps conf req = matchEndpoint deps conf' req := by
    rw [matchEndpoint, matchEndpoint, endpointIndex_mapOrder h]
  have hincoming : ∀ route, matchIncomingRoute conf toUser route = matchIncomingRoute conf' toUser route := by
    intro route
    rw [matchIncomingRoute, matchIncomingRoute, lookup_perm h.routes]
  have hload : ∀ route, endpointLoadOutboundURI { pbx with conf := conf } rx toUser route =
      endpointLoadOutboundURI { pbx with conf := conf' } rx toUser route := by
    intro route
    have hfind : findUserEndpoint conf toUser = findUserEndpoint conf' toUser := by
      rw [findUserEndpoint, findUserEndpoint, endpointIndex_mapOrder h]
    have houtgoing : matchOutgoingRouteEndpoint conf toUser route = matchOutgoingRouteEndpoint conf' toUser route := by
      rw [matchOutgoingRouteEndpoint, matchOutgoingRouteEndpoint, hfind, lookup_perm h.endpoints]
    unfold endpointLoadOutboundURI
    rw [show matchOutgoingRouteEndpoint conf toUser route = _ from houtgoing]
    rfl
  unfold routeCall
  simp only [hmatch, hincoming, hload]
  rfl

end Route

/-- Two starts load one document alike, whatever the order in which the maps are visited. Loads that succeed are
validated alike, and under both every call takes the same way. -/
theorem routeCall_mapOrder {deps : Deps} {decode decode' : YamlNode → Config → Config × Option String} {root : YamlNode}
    {c c' : Config} (herr : (decode root c).2 = (decode' root c').2)
    (hdecode : SameMaps (decode root c).1 (decode' root c').1) :
    Alike (configLoad deps (root.document decode) c).2 (configLoad deps (root.document decode') c').2 ∧
      ∀ conf conf', configLoad deps (root.document decode) c = (conf, none) →
        configLoad deps (root.document decode') c' = (conf', none) →
        (validate conf = .ok () ↔ validate conf' = .ok ()) ∧ inOrder conf = inOrder conf' ∧
          ∀ (pbx : PBX) (rx : RouteExternals) (req : Request) (fromUser toUser : String),
            routeCall deps { pbx with conf := conf } rx req fromUser toUser =
              routeCall deps { pbx with conf := conf' } rx req fromUser toUser := by
  obtain ⟨halike, hsame⟩ := @configLoad_mapOrder deps (root.document decode) (root.document decode') c c' rfl rfl herr
    hdecode
  refine ⟨halike, fun conf conf' hload hload' => ?_⟩
  rw [hload, hload'] at hsame
  have hmaps : SameMaps conf conf' := hsame rfl
  have hat : endpointAt conf.endpoints = endpointAt conf'.endpoints := by
    funext name
    rw [endpointAt, endpointAt, lookup_perm hmaps.endpoints]
  refine ⟨validate_mapOrder hmaps, ?_, routeCall_sameMaps hmaps⟩
  rw [inOrder, inOrder, endpointNames_eq_of_perm hmaps.endpoints, hmaps.endpointOrder, hat]

/-- A document with an endpoint for UDP before one for TCP. -/
def twoEndpoints : YamlNode :=
  let entry (name : String) : List YamlNode := [.node .scalar name [], .node .mapping "" []]
  .node .document "" [.node .mapping "" [.node .scalar "endpoints" [], .node .mapping "" (entry "udp" ++ entry "tcp")]]

def decodeEndpoints (endpoints : StringMap ConfigEndpoint) (_ : YamlNode) (c : Config) : Config × Option String :=
  ({ c with endpoints := endpoints }, none)

/-- The endpoints of the document, visited the other way round. -/
def reversedEndpoints : StringMap ConfigEndpoint :=
  ⟨[⟨"tcp", { «match» := { transport := "tcp" } }⟩, ⟨"udp", { «match» := { transport := "udp" } }⟩],
    by rw [List.NodupKeys]; decide⟩

theorem routeCall_mapOrder_reversed :
    let conf := (configLoad plainDeps (twoEndpoints.document (decodeEndpoints defaultEndpoints)) {}).1
    let conf' := (configLoad plainDeps (twoEndpoints.document (decodeEndpoints reversedEndpoints)) {}).1
    conf.endpoints.entries ≠ conf'.endpoints.entries ∧ (inOrder conf').map (·.name) = ["udp", "tcp"] ∧
      ∀ (pbx : PBX) (rx : RouteExternals) (req : Request) (fromUser toUser : String),
        routeCall plainDeps { pbx with conf := conf } rx req fromUser toUser =
          routeCall plainDeps { pbx with conf := conf' } rx req fromUser toUser := by
  intro conf conf'
  have hsame : SameMaps (decodeEndpoints defaultEndpoints twoEndpoints {}).1
      (decodeEndpoints reversedEndpoints twoEndpoints {}).1 :=
    ⟨rfl, .refl _, .swap _ _ _, .refl _, rfl, rfl⟩
  obtain ⟨-, hcalls⟩ := @routeCall_mapOrder plainDeps (decodeEndpoints defaultEndpoints)
    (decodeEndpoints reversedEndpoints) twoEndpoints {} {} rfl hsame
  have hload : configLoad plainDeps (twoEndpoints.document (decodeEndpoints defaultEndpoints)) {} = (conf, none) :=
    Prod.ext rfl (by decide)
  have hload' : configLoad plainDeps (twoEndpoints.document (decodeEndpoints reversedEndpoints)) {} = (conf', none) :=
    Prod.ext rfl (by decide)
  obtain ⟨-, horder, hroute⟩ := hcalls conf conf' hload hload'
  refine ⟨by decide, ?_, hroute⟩
  rw [← horder]
  decide

end Call
