import Diagox.Registrar.Scheme

/-!
# The digest store and the order of a map

`setupDiago` fills the digest store in the order in which it visits the map of endpoints, which is another one on
every start. Routing tells `user` endpoints of one name apart by their transport, and the store has one place for all
of them, which the last one takes.
-/

namespace Registrar

open Sip Configuration

/-- The configuration with its map of endpoints visited in another order. -/
def reorder (conf : Config) {entries : List (Σ _ : String, ConfigEndpoint)}
    (h : entries.Perm conf.endpoints.entries) : Config :=
  { conf with endpoints := ⟨entries, (List.perm_nodupKeys h).mpr conf.endpoints.nodupKeys⟩ }

/-- Any two starts build digest stores that have the same data for every user. -/
def IndependentOfOrder (conf : Config) : Prop :=
  ∀ (entries entries' : List (Σ _ : String, ConfigEndpoint)) (h : entries.Perm conf.endpoints.entries)
    (h' : entries'.Perm conf.endpoints.entries) (user : String),
    userAuths (reorder conf h) user = userAuths (reorder conf h') user

/-- `user` endpoints of one name have one username and one password. -/
def AgreeingUsers (conf : Config) : Prop :=
  ∀ x ∈ conf.endpoints.entries, ∀ y ∈ conf.endpoints.entries, x.2.match.type = "user" → y.2.match.type = "user" →
    x.2.name = y.2.name → x.2.auth.username = y.2.auth.username ∧ x.2.auth.password = y.2.auth.password

section Order

variable {conf : Config} {entries : List (Σ _ : String, ConfigEndpoint)}

theorem userAuths_reorder (h : entries.Perm conf.endpoints.entries) (user : String) :
    userAuths (reorder conf h) user = (entries.filterMap fun x => authFor user x.2).getLast? := userAuths_eq _ user

theorem mem_authFor_eq (hagree : AgreeingUsers conf) {user : String} {auth auth' : DigestAuth}
    (h : auth ∈ conf.endpoints.entries.filterMap fun x => authFor user x.2)
    (h' : auth' ∈ conf.endpoints.entries.filterMap fun x => authFor user x.2) : auth = auth' := by
  obtain ⟨x, hx, hxauth⟩ := List.mem_filterMap.mp h
  obtain ⟨y, hy, hyauth⟩ := List.mem_filterMap.mp h'
  unfold authFor at hxauth hyauth
  split_ifs at hxauth with hxuser
  split_ifs at hyauth with hyuser
  obtain ⟨husername, hpassword⟩ := hagree x hx y hy hxuser.1 hyuser.1 (hxuser.2.trans hyuser.2.symm)
  rw [← Option.some.inj hxauth, ← Option.some.inj hyauth, endpointAuth, endpointAuth, husername, hpassword]

theorem userAuths_visitedLast {x : Σ _ : String, ConfigEndpoint} (hx : x ∈ conf.endpoints.entries)
    (huser : x.2.match.type = "user") :
    ∃ (entries : List (Σ _ : String, ConfigEndpoint)) (h : entries.Perm conf.endpoints.entries),
      userAuths (reorder conf h) x.2.name = some (endpointAuth x.2) := by
  have hperm : (conf.endpoints.entries.erase x ++ [x]).Perm conf.endpoints.entries :=
    (List.perm_append_singleton _ _).trans (List.perm_cons_erase hx).symm
  have hauth : [x].filterMap (fun y => authFor x.2.name y.2) = [endpointAuth x.2] :=
    List.filterMap_cons_some (if_pos ⟨huser, rfl⟩)
  refine ⟨_, hperm, ?_⟩
  rw [userAuths_reorder, List.filterMap_append, hauth, List.getLast?_concat]

end Order

/-- Any two starts give the registrar the same credentials for every user, exactly when `user` endpoints of one name
have one username and one password. -/
theorem independentOfOrder_iff (conf : Config) : IndependentOfOrder conf ↔ AgreeingUsers conf := by
  constructor
  · intro hsame x hx y hy hxuser hyuser hname
    obtain ⟨entries, h, hlast⟩ := userAuths_visitedLast hx hxuser
    obtain ⟨entries', h', hlast'⟩ := userAuths_visitedLast hy hyuser
    rw [hsame entries entries' h h', hname, hlast'] at hlast
    have hauth := Option.some.inj hlast
    exact ⟨(congrArg DigestAuth.username hauth).symm, (congrArg DigestAuth.password hauth).symm⟩
  · intro hagree entries entries' h h' user
    rw [userAuths_reorder, userAuths_reorder]
    have hperm : (entries.filterMap fun x => authFor user x.2).Perm (entries'.filterMap fun x => authFor user x.2) :=
      .filterMap _ (h.trans h'.symm)
    have hstored : (entries.filterMap fun x => authFor user x.2).Perm
        (conf.endpoints.entries.filterMap fun x => authFor user x.2) := .filterMap _ h
    cases hlast : (entries.filterMap fun x => authFor user x.2).getLast? with
    | none =>
        have hnil : entries.filterMap (fun x => authFor user x.2) = [] := List.getLast?_eq_none_iff.mp hlast
        have hnil' : entries'.filterMap (fun x => authFor user x.2) = [] := (hnil ▸ hperm).symm.eq_nil
        rw [hnil', List.getLast?_nil]
    | some auth =>
        have hauth := List.mem_of_getLast? hlast
        have hne : entries'.filterMap (fun x => authFor user x.2) ≠ [] :=
          List.ne_nil_of_mem (hperm.mem_iff.mp hauth)
        obtain ⟨auth', hlast'⟩ := Option.isSome_iff_exists.mp (List.getLast?_isSome.mpr hne)
        rw [hlast', mem_authFor_eq hagree (hstored.mem_iff.mp hauth)
          (hstored.mem_iff.mp (hperm.mem_iff.mpr (List.mem_of_getLast? hlast')))]

def aliceEndpoint (transport password : String) : ConfigEndpoint :=
  { name := "alice", «match» := { type := "user", transport := transport }, auth := { password := password },
    route := "default" }

/-- Two endpoints for alice, one for each transport, with passwords of their own. -/
def twoTransports : Config where
  endpoints :=
    ⟨[⟨"alice_udp", aliceEndpoint "udp" "u"⟩, ⟨"alice_tcp", aliceEndpoint "tcp" "t"⟩],
      by simp [List.NodupKeys, List.keys]⟩
  routes := AList.singleton "default" (some [defaultRoute])
  endpointOrder := ["alice_udp", "alice_tcp"]

/-- Which of the passwords alice registers with depends on the start. -/
theorem not_independentOfOrder : ¬ ∀ conf : Config, validate conf = .ok () → IndependentOfOrder conf := by
  intro h
  have hsame := h twoTransports (by decide) twoTransports.endpoints.entries twoTransports.endpoints.entries.reverse
    (.refl _) (List.reverse_perm _) "alice"
  exact absurd hsame (by decide)

end Registrar
