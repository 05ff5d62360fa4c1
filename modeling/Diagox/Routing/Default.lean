import Diagox.Routing.Scan

/-!
# Default endpoints

An endpoint without a match type takes the requests that no other endpoint takes. The index keeps the first
one only, before any transport is known, so a request reaches the first default endpoint of its transport
when that is the first of all default endpoints, or when no default endpoint has its transport.
-/

namespace Routing

open Sip Configuration NetIP OrderedScan

/-- The endpoints in the order of `endpointNames`. -/
def inOrder (conf : Config) : List ConfigEndpoint :=
  (endpointNames conf.endpoints conf.endpointOrder).map (endpointAt conf.endpoints)

section Transport

variable (deps : Deps)

/-- The endpoint has no transport configured, or this one. -/
def Accepts (e : ConfigEndpoint) (transport : String) : Prop :=
  normalizeTransport deps e.match.transport = "" ∨ normalizeTransport deps e.match.transport = transport

instance (e : ConfigEndpoint) (transport : String) : Decidable (Accepts deps e transport) :=
  inferInstanceAs (Decidable (_ ∨ _))

theorem endpointTransportMatches_iff (e : ConfigEndpoint) (transport : String) :
    endpointTransportMatches deps e transport = true ↔ Accepts deps e transport := by
  unfold endpointTransportMatches Accepts
  by_cases hwant : normalizeTransport deps e.match.transport = ""
  · simp [hwant]
  · simp only [hwant, if_false, false_or, Bool.and_eq_true, decide_eq_true_eq]
    constructor
    · rintro ⟨-, rfl⟩
      rfl
    · rintro rfl
      exact ⟨hwant, rfl⟩

/-- No endpoint of the other classes is for a request of this user, address and transport. -/
structure Unclaimed (L : List ConfigEndpoint) (fromUser : String) (ip : Addr) (transport : String) : Prop where
  user : ∀ e ∈ L, IsUser fromUser e → ¬ Accepts deps e transport
  ip : ∀ x ∈ ipValues L, ValueMatches ip x.2 → ¬ Accepts deps x.1 transport
  dynamic : ∀ e ∈ L, e.match.type = "user_dynamic" → fromUser ≠ "" → ¬ Accepts deps e transport

/-- The first default endpoint of this transport. -/
def scanDefault (L : List ConfigEndpoint) (transport : String) : Option ConfigEndpoint :=
  L.find? fun e => e.match.type = "" ∧ Accepts deps e transport

end Transport

/-! ### The two slots of the index -/

/-- The index has the first endpoint of either class after the endpoints `L`. -/
structure HoldsFirst (L : List ConfigEndpoint) (state : EndpointIndex × Nat) : Prop where
  dynamicUser : state.1.dynamicUser = L.find? fun e => e.match.type = "user_dynamic"
  defaultEnd : state.1.defaultEnd = L.find? fun e => e.match.type = ""

theorem addValue_first {e : ConfigEndpoint} {state state' : EndpointIndex × Nat} {value : String}
    (h : addValue e state value = .ok state') :
    state'.1.dynamicUser = state.1.dynamicUser ∧ state'.1.defaultEnd = state.1.defaultEnd := by
  obtain ⟨index, valueOrder⟩ := state
  unfold addValue at h
  cases haddr : parseAddr value with
  | some a =>
      simp only [haddr] at h
      rw [← Except.ok.inj h]
      exact ⟨rfl, rfl⟩
  | none =>
      cases hprefix : parsePrefix value with
      | none => simp [haddr, hprefix] at h
      | some p =>
          simp only [haddr, hprefix] at h
          rw [← Except.ok.inj h]
          exact ⟨rfl, rfl⟩

theorem holdsFirst_addEndpoint {L : List ConfigEndpoint} {state state' : EndpointIndex × Nat} {e : ConfigEndpoint}
    (hL : HoldsFirst L state) (h : addEndpoint state e = .ok state') : HoldsFirst (L ++ [e]) state' := by
  obtain ⟨index, valueOrder⟩ := state
  obtain ⟨hdynamic, hdefault⟩ := hL
  simp only at hdynamic hdefault
  -- an endpoint of another class leaves both slots
  have hkeep : e.match.type ≠ "user_dynamic" → e.match.type ≠ "" → state'.1.dynamicUser = index.dynamicUser →
      state'.1.defaultEnd = index.defaultEnd → HoldsFirst (L ++ [e]) state' := by
    intro hdyn hdef hsame hsame'
    exact ⟨by simp [hsame, hdynamic, hdyn], by simp [hsame', hdefault, hdef]⟩
  unfold addEndpoint at h
  split_ifs at h with huser hip hdyn hdef
  · obtain rfl := Except.ok.inj h
    exact hkeep (by simp [huser]) (by simp [huser]) rfl rfl
  · let Inv := fun (_ : List String) (s : EndpointIndex × Nat) =>
      s.1.dynamicUser = index.dynamicUser ∧ s.1.defaultEnd = index.defaultEnd
    have hstep : ∀ done s value s', Inv done s → addValue e s value = .ok s' → Inv (done ++ [value]) s' := by
      intro done s value s' hs hadd
      obtain ⟨h₁, h₂⟩ := addValue_first hadd
      exact ⟨h₁.trans hs.1, h₂.trans hs.2⟩
    have hnone : Inv [] (index, valueOrder) := ⟨rfl, rfl⟩
    have hall : Inv ([] ++ e.match.values) state' := @foldlM_invariant _ _ _ _ _ hstep _ [] _ _ hnone h
    exact hkeep (by simp [hip]) (by simp [hip]) hall.1 hall.2
  · obtain rfl := Except.ok.inj h
    refine ⟨?_, by simp [hdefault, hdyn]⟩
    simp only [List.find?_append, hdynamic]
    cases L.find? fun e => e.match.type = "user_dynamic" with
    | none => simp [hdyn]
    | some e' => rfl
  · obtain rfl := Except.ok.inj h
    refine ⟨by simp [hdynamic, hdef], ?_⟩
    simp only [List.find?_append, hdefault]
    cases L.find? fun e => e.match.type = "" with
    | none => simp [hdef]
    | some e' => rfl
  · obtain rfl := Except.ok.inj h
    exact hkeep hdyn hdef rfl rfl

theorem holdsFirst_build {endpoints : StringMap ConfigEndpoint} {order : List String} {index : EndpointIndex}
    (h : buildEndpointIndex endpoints order = .ok index) :
    ∃ n, HoldsFirst ((endpointNames endpoints order).map (endpointAt endpoints)) (index, n) := by
  have hempty : HoldsFirst [] (({}, 0) : EndpointIndex × Nat) := ⟨rfl, rfl⟩
  exact buildEndpointIndex_invariant (fun _ _ _ _ => holdsFirst_addEndpoint) hempty h

/-! ### Unclaimed requests -/

/-- An unclaimed request goes to the first default endpoint if it accepts the transport, and to none
otherwise. -/
theorem matchEndpoint_unclaimed {deps : Deps} {doc : YamlDocument} {c conf : Config}
    (hload : configLoad deps doc c = (conf, none)) {req : Request} {fromAddress : Uri} {s : Addr}
    (hfrom : req.fromAddress = some fromAddress) (hsource : sourceIP deps req = some s)
    (hunclaimed : Unclaimed deps (inOrder conf) fromAddress.user s.unmap (requestTransport deps req)) :
    matchEndpoint deps conf req =
      .ok (((inOrder conf).find? fun e => e.match.type = "").filter fun e =>
        Accepts deps e (requestTransport deps req)) := by
  obtain ⟨-, -, -, index, hindex, hbuild⟩ := configLoad_ok hload
  obtain ⟨n, hholds⟩ := holdsEndpoints_build hbuild
  obtain ⟨m, hdynamic, hdefault⟩ := holdsFirst_build hbuild
  have huser : scanUser deps (inOrder conf) fromAddress.user (requestTransport deps req) = none := by
    simp only [scanUser, List.find?_eq_none, decide_eq_true_eq, endpointTransportMatches_iff]
    exact fun e he h => hunclaimed.user e he h.1 h.2
  have hip : scanIP deps (inOrder conf) s.unmap (requestTransport deps req) = none := by
    simp only [scanIP, Option.map_eq_none_iff, List.find?_eq_none, decide_eq_true_eq, endpointTransportMatches_iff]
    exact fun x hx h => hunclaimed.ip x hx h.1 h.2
  have hdyn : (index.dynamicUser.filter fun e =>
      fromAddress.user ≠ "" && endpointTransportMatches deps e (requestTransport deps req)) = none := by
    rw [Option.filter_eq_none_iff]
    intro e he
    have hfirst : (inOrder conf).find? (fun e => e.match.type = "user_dynamic") = some e := hdynamic.symm.trans he
    have htype : e.match.type = "user_dynamic" := by simpa using List.find?_some hfirst
    simp only [Bool.and_eq_true, decide_eq_true_eq, endpointTransportMatches_iff]
    exact fun h => hunclaimed.dynamic e (List.mem_of_find?_eq_some hfirst) htype h.1 h.2
  have hend : index.defaultEnd = (inOrder conf).find? fun e => e.match.type = "" := hdefault
  simp only [matchEndpoint, endpointIndex, hindex, hfrom, hsource, matchUser_eq hholds, matchIP_eq hholds]
  rw [show (endpointNames conf.endpoints conf.endpointOrder).map (endpointAt conf.endpoints) = inOrder conf from rfl,
    huser, hip]
  simp only [EndpointIndex.matchRest, hdyn, hend]
  congr 2
  funext e
  rw [Bool.eq_iff_iff, endpointTransportMatches_iff, decide_eq_true_iff]

/-- A request that no other endpoint takes goes to the first default endpoint of its transport exactly when
the first default endpoint accepts the transport, or none does. -/
theorem matchEndpoint_default_iff {deps : Deps} {doc : YamlDocument} {c conf : Config}
    (hload : configLoad deps doc c = (conf, none)) {req : Request} {fromAddress : Uri} {s : Addr}
    (hfrom : req.fromAddress = some fromAddress) (hsource : sourceIP deps req = some s)
    (hunclaimed : Unclaimed deps (inOrder conf) fromAddress.user s.unmap (requestTransport deps req)) :
    matchEndpoint deps conf req = .ok (scanDefault deps (inOrder conf) (requestTransport deps req)) ↔
      (∀ first, ((inOrder conf).find? fun e => e.match.type = "") = some first →
        Accepts deps first (requestTransport deps req)) ∨
      ∀ e ∈ inOrder conf, e.match.type = "" → ¬ Accepts deps e (requestTransport deps req) := by
  rw [matchEndpoint_unclaimed hload hfrom hsource hunclaimed, Except.ok.injEq]
  have hscan : scanDefault deps (inOrder conf) (requestTransport deps req) =
      ((inOrder conf).filter fun e => e.match.type = "").find? fun e => Accepts deps e (requestTransport deps req) := by
    rw [scanDefault, List.find?_filter]
    simp
  have hfirst : ((inOrder conf).find? fun e => e.match.type = "") =
      ((inOrder conf).filter fun e => e.match.type = "").head? := List.head?_filter.symm
  have hnone : (∀ e ∈ inOrder conf, e.match.type = "" → ¬ Accepts deps e (requestTransport deps req)) ↔
      ∀ e ∈ (inOrder conf).filter fun e => e.match.type = "", ¬ Accepts deps e (requestTransport deps req) := by
    simp
  rw [hscan, hfirst, hnone]
  cases (inOrder conf).filter fun e => e.match.type = "" with
  | nil => simp
  | cons first rest =>
      by_cases haccepts : Accepts deps first (requestTransport deps req)
      · simp [haccepts]
      · have hfilter : (some first).filter (fun e => Accepts deps e (requestTransport deps req)) = none := by
          simp [haccepts]
        rw [List.head?_cons, hfilter, List.find?_cons_of_neg (by simpa using haccepts), eq_comm, List.find?_eq_none]
        simp [haccepts]

def defaultEndpoints : StringMap ConfigEndpoint :=
  ⟨[⟨"udp", { «match» := { transport := "udp" } }⟩, ⟨"tcp", { «match» := { transport := "tcp" } }⟩],
    by rw [List.NodupKeys]; decide⟩

def defaultDocument : YamlDocument where
  decode c := ({ c with endpoints := defaultEndpoints }, none)
  endpointKeys := ["udp", "tcp"]

/-- A request of somebody who is not configured. -/
def unknownRequest (transport : String) : Request where
  fromAddress := some { user := "unknown" }
  source := "10.5.1.1:48132"
  transport := transport

theorem matchEndpoint_default_udp :
    let conf := (configLoad plainDeps defaultDocument {}).1
    matchEndpoint plainDeps conf (unknownRequest "UDP") =
      .ok (scanDefault plainDeps (inOrder conf) (requestTransport plainDeps (unknownRequest "UDP"))) := by
  have hload : configLoad plainDeps defaultDocument {} = ((configLoad plainDeps defaultDocument {}).1, none) :=
    Prod.ext rfl (by decide)
  have hfrom : (unknownRequest "UDP").fromAddress = some { user := "unknown" } := rfl
  have hsource : sourceIP plainDeps (unknownRequest "UDP") = some (.v4 0x0a050101) := by decide
  have horder : inOrder (configLoad plainDeps defaultDocument {}).1 =
      [{ name := "udp", route := "default", «match» := { transport := "udp" } },
        { name := "tcp", route := "default", «match» := { transport := "tcp" } }] := by decide
  refine (matchEndpoint_default_iff hload hfrom hsource ?_).mpr (.inl ?_)
  · rw [horder]
    exact ⟨by simp [IsUser], by simp [ipValues], by simp⟩
  · rw [horder]
    decide

/-- A request over TCP does not reach the default endpoint for TCP, which comes second. -/
theorem not_matchEndpoint_default :
    ¬ ∀ (deps : Deps) (doc : YamlDocument) (c conf : Config) (req : Request) (fromAddress : Uri) (s : Addr),
      configLoad deps doc c = (conf, none) → req.fromAddress = some fromAddress → sourceIP deps req = some s →
      Unclaimed deps (inOrder conf) fromAddress.user s.unmap (requestTransport deps req) →
      matchEndpoint deps conf req = .ok (scanDefault deps (inOrder conf) (requestTransport deps req)) := by
  intro h
  have horder : inOrder (configLoad plainDeps defaultDocument {}).1 =
      [{ name := "udp", route := "default", «match» := { transport := "udp" } },
        { name := "tcp", route := "default", «match» := { transport := "tcp" } }] := by decide
  have htcp := h plainDeps defaultDocument {} (configLoad plainDeps defaultDocument {}).1 (unknownRequest "TCP")
    { user := "unknown" } (.v4 0x0a050101) (Prod.ext rfl (by decide)) rfl (by decide)
    (by rw [horder]; exact ⟨by simp [IsUser], by simp [ipValues], by simp⟩)
  revert htcp
  decide

end Routing
