import Diagox.Lib.OrderedScan
import Diagox.Routing.Router
import Mathlib.Data.Finset.Sort
import Mathlib.Data.String.Basic

/-!
# The index and the ordered scan

What the endpoint index is for: the `user` and `ip` stages of `matchEndpoint` find what a plain scan of the
endpoints in the order of the configuration finds. The scan knows nothing of maps, counters and sorting. The
index is built value by value, and after each value it holds the classes of the values so far; `matchIP`
puts two of the classes together again.
-/

namespace Routing

open Sip Configuration NetIP OrderedScan

/-! ### The scan -/

/-- The endpoints in the order of the configuration: those in `order`, then the others by key. -/
def declared (endpoints : StringMap ConfigEndpoint) (order : List String) : List ConfigEndpoint :=
  (order ++ (endpoints.keys.toFinset \ order.toFinset).sort).filterMap endpoints.lookup

section Scan

variable (deps : Deps)

def IsUser (u : String) (e : ConfigEndpoint) : Prop := e.match.type = "user" ∧ e.name = u

instance (u : String) : DecidablePred (IsUser u) := fun _ => inferInstanceAs (Decidable (_ ∧ _))

/-- The `ip` endpoints with each of their values. -/
def ipValues (L : List ConfigEndpoint) : List (ConfigEndpoint × String) :=
  (L.filter fun e => e.match.type = "ip").flatMap fun e => e.match.values.map (e, ·)

/-- The value is the address, after `Unmap`, or a prefix that contains it. -/
def ValueMatches (ip : Addr) (value : String) : Prop :=
  (∃ a, parseAddr value = some a ∧ a.unmap = ip) ∨ ∃ p, parsePrefix value = some p ∧ p.contains ip

/-- The first `user` endpoint of that name and transport. -/
noncomputable def scanUser (L : List ConfigEndpoint) (u transport : String) : Option ConfigEndpoint :=
  L.find? fun e => IsUser u e ∧ endpointTransportMatches deps e transport

open Classical in
/-- The endpoint of the first value that the address matches, among those of that transport. -/
noncomputable def scanIP (L : List ConfigEndpoint) (ip : Addr) (transport : String) : Option ConfigEndpoint :=
  ((ipValues L).find? fun x => ValueMatches ip x.2 ∧ endpointTransportMatches deps x.1 transport).map Prod.fst

end Scan

/-! ### What the index holds -/

def isExact (ip : Addr) (value : String) : Bool := (parseAddr value).any fun a => a.unmap = ip

/-- A value is a prefix that contains the address. -/
def isWithin (ip : Addr) (value : String) : Bool :=
  (parseAddr value).isNone && (parsePrefix value).any fun p => p.contains ip

def numbered (x : (ConfigEndpoint × String) × Nat) : IndexedEndpoint := ⟨x.2, x.1.1⟩

/-- What the index keeps of a value that is no address. -/
def compiled (x : (ConfigEndpoint × String) × Nat) : Option CompiledCIDREndpoint :=
  if (parseAddr x.1.2).isSome then none else (parsePrefix x.1.2).map fun p => ⟨x.2, p.masked, x.1.1⟩

/-- The addresses, prefixes and the counter after the values `V`. -/
structure HoldsValues (V : List (ConfigEndpoint × String)) (state : EndpointIndex × Nat) : Prop where
  exact : ∀ ip, state.1.exactIPs ip = (V.zipIdx.filter fun x => isExact ip x.1.2).map numbered
  cidrs : state.1.cidrs = V.zipIdx.filterMap compiled
  count : state.2 = V.length

/-- The whole index after the endpoints `L`. -/
structure HoldsEndpoints (L : List ConfigEndpoint) (state : EndpointIndex × Nat) : Prop where
  values : HoldsValues (ipValues L) state
  users : ∀ u, state.1.users u = L.filter fun e => IsUser u e

theorem addValue_users {e : ConfigEndpoint} {state state' : EndpointIndex × Nat} {value : String}
    (h : addValue e state value = .ok state') : state'.1.users = state.1.users := by
  obtain ⟨index, valueOrder⟩ := state
  unfold addValue at h
  cases haddr : parseAddr value with
  | some a =>
      simp only [haddr] at h
      rw [← Except.ok.inj h]
  | none =>
      cases hprefix : parsePrefix value with
      | none => simp [haddr, hprefix] at h
      | some p =>
          simp only [haddr, hprefix] at h
          rw [← Except.ok.inj h]

theorem holdsValues_addValue {V : List (ConfigEndpoint × String)} {e : ConfigEndpoint}
    {state state' : EndpointIndex × Nat} {value : String} (hV : HoldsValues V state)
    (h : addValue e state value = .ok state') : HoldsValues (V ++ [(e, value)]) state' := by
  obtain ⟨index, valueOrder⟩ := state
  obtain ⟨hexact, hcidrs, hcount⟩ := hV
  simp only at hexact hcidrs hcount
  have hzip : (V ++ [(e, value)]).zipIdx = V.zipIdx ++ [((e, value), V.length)] := by
    simp [List.zipIdx_append]
  unfold addValue at h
  cases haddr : parseAddr value with
  | some a =>
      simp only [haddr] at h
      rw [← Except.ok.inj h]
      refine ⟨fun ip => ?_, ?_, by simp [hcount]⟩
      · by_cases hip : a.unmap = ip
        · subst hip
          simp [hzip, hexact, hcount, isExact, haddr, numbered]
        · simp [hzip, hexact, isExact, haddr, Function.update_of_ne (Ne.symm hip), hip]
      · simp [hzip, hcidrs, compiled, haddr]
  | none =>
      cases hprefix : parsePrefix value with
      | none => simp [haddr, hprefix] at h
      | some p =>
          simp only [haddr, hprefix] at h
          rw [← Except.ok.inj h]
          refine ⟨fun ip => ?_, ?_, by simp [hcount]⟩
          · simp [hzip, hexact, isExact, haddr]
          · simp [hzip, hcidrs, hcount, compiled, haddr, hprefix]

theorem holdsEndpoints_addValues {L : List ConfigEndpoint} {state state' : EndpointIndex × Nat} {e : ConfigEndpoint}
    (hL : HoldsEndpoints L state) (htype : e.match.type = "ip")
    (h : e.match.values.foldlM (addValue e) state = .ok state') : HoldsEndpoints (L ++ [e]) state' := by
  have hvalues : ipValues (L ++ [e]) = ipValues L ++ e.match.values.map (e, ·) := by
    simp [ipValues, htype]
  let Inv := fun (done : List String) (s : EndpointIndex × Nat) =>
    HoldsValues (ipValues L ++ done.map (e, ·)) s ∧ s.1.users = state.1.users
  have hstep : ∀ done s value s', Inv done s → addValue e s value = .ok s' → Inv (done ++ [value]) s' := by
    intro done s value s' hs hadd
    refine ⟨?_, (addValue_users hadd).trans hs.2⟩
    rw [List.map_append, ← List.append_assoc]
    exact holdsValues_addValue hs.1 hadd
  have hnone : Inv [] state := ⟨by simpa using hL.values, rfl⟩
  obtain ⟨hV, husers⟩ := foldlM_invariant hstep hnone h
  refine ⟨by simpa [hvalues] using hV, fun u => ?_⟩
  rw [husers, hL.users u]
  simp [IsUser, htype]

theorem holdsValues_append {L : List ConfigEndpoint} {state state' : EndpointIndex × Nat} {e : ConfigEndpoint}
    (hL : HoldsValues (ipValues L) state) (htype : e.match.type ≠ "ip") (hexact : state'.1.exactIPs = state.1.exactIPs)
    (hcidrs : state'.1.cidrs = state.1.cidrs) (hcount : state'.2 = state.2) :
    HoldsValues (ipValues (L ++ [e])) state' := by
  have hvalues : ipValues (L ++ [e]) = ipValues L := by simp [ipValues, htype]
  rw [hvalues]
  exact ⟨fun ip => by rw [hexact, hL.exact], by rw [hcidrs, hL.cidrs], by rw [hcount, hL.count]⟩

theorem holdsEndpoints_addEndpoint {L : List ConfigEndpoint} {state state' : EndpointIndex × Nat} {e : ConfigEndpoint}
    (hL : HoldsEndpoints L state) (h : addEndpoint state e = .ok state') : HoldsEndpoints (L ++ [e]) state' := by
  obtain ⟨index, valueOrder⟩ := state
  by_cases hip : e.match.type = "ip"
  · refine holdsEndpoints_addValues hL hip ?_
    simpa [addEndpoint, hip] using h
  by_cases huser : e.match.type = "user"
  · simp only [addEndpoint, huser, if_true] at h
    obtain rfl := Except.ok.inj h
    refine ⟨holdsValues_append hL.values hip rfl rfl rfl, fun u => ?_⟩
    have husers := hL.users
    simp only at husers ⊢
    by_cases hu : e.name = u
    · subst hu
      simp [husers, IsUser, huser]
    · simp [husers, IsUser, huser, Function.update_of_ne (Ne.symm hu), hu]
  -- the other types show in neither stage
  have hsame : state'.1.users = index.users ∧ state'.1.exactIPs = index.exactIPs ∧ state'.1.cidrs = index.cidrs ∧
      state'.2 = valueOrder := by
    unfold addEndpoint at h
    simp only [huser, hip, if_false] at h
    split_ifs at h <;> (rw [← Except.ok.inj h]; exact ⟨rfl, rfl, rfl, rfl⟩)
  obtain ⟨husers, hexact, hcidrs, hcount⟩ := hsame
  refine ⟨holdsValues_append hL.values hip hexact hcidrs hcount, fun u => ?_⟩
  rw [husers]
  simpa [IsUser, huser] using hL.users u

theorem holdsEndpoints_build {endpoints : StringMap ConfigEndpoint} {order : List String} {index : EndpointIndex}
    (h : buildEndpointIndex endpoints order = .ok index) :
    ∃ n, HoldsEndpoints ((endpointNames endpoints order).map (endpointAt endpoints)) (index, n) := by
  have hempty : HoldsEndpoints [] (({}, 0) : EndpointIndex × Nat) := ⟨⟨fun _ => rfl, rfl, rfl⟩, fun _ => rfl⟩
  exact buildEndpointIndex_invariant (fun _ _ _ _ => holdsEndpoints_addEndpoint) hempty h

/-! ### The names in order -/

theorem sort_eq_insertionSort {l : List String} (hl : l.Nodup) : l.toFinset.sort = l.insertionSort (· ≤ ·) := by
  have hperm := List.perm_insertionSort (· ≤ ·) l
  rw [← List.toFinset_eq_of_perm _ _ hperm]
  exact (List.toFinset_sort _ (hperm.nodup_iff.mpr hl)).mpr (List.pairwise_insertionSort _ _)

theorem map_endpointAt {endpoints : StringMap ConfigEndpoint} {names : List String}
    (h : ∀ name ∈ names, (endpoints.lookup name).isSome) :
    names.map (endpointAt endpoints) = names.filterMap endpoints.lookup := by
  induction names with
  | nil => rfl
  | cons name names ih =>
      obtain ⟨e, he⟩ := Option.isSome_iff_exists.mp (h name List.mem_cons_self)
      rw [List.map_cons, List.filterMap_cons, he, ih fun n hn => h n (List.mem_cons_of_mem _ hn)]
      simp [endpointAt, he]

theorem map_endpointNames (endpoints : StringMap ConfigEndpoint) (order : List String) :
    (endpointNames endpoints order).map (endpointAt endpoints) = declared endpoints order := by
  have hkey : ∀ name, name ∈ endpoints.keys ↔ (endpoints.lookup name).isSome := fun name => by
    rw [AList.lookup_isSome, AList.mem_keys]
  have hextra : (endpoints.keys.filter fun name => name ∉ order.filter fun name => (endpoints.lookup name).isSome) =
      endpoints.keys.filter fun name => name ∉ order := by
    refine List.filter_congr fun name hname => ?_
    simp [(hkey name).mp hname]
  have hrest : (endpoints.keys.toFinset \ order.toFinset).sort =
      (endpoints.keys.filter fun name => name ∉ order).insertionSort (· ≤ ·) := by
    rw [← sort_eq_insertionSort (endpoints.keys_nodup.filter _)]
    congr 1
    ext name
    simp
  rw [map_endpointAt, declared, hrest, endpointNames, hextra, List.filterMap_append, List.filterMap_append]
  · congr 1
    rw [List.filterMap_filter]
    refine List.filterMap_congr fun name _ => ?_
    cases endpoints.lookup name <;> simp
  · intro name hname
    rw [endpointNames, hextra, List.mem_append, List.mem_insertionSort] at hname
    obtain hname | hname := hname
    · exact of_decide_eq_true (by simpa using (List.mem_filter.mp hname).2)
    · exact (hkey name).mp (List.mem_filter.mp hname).1

/-! ### The stages -/

section Stages

variable {deps : Deps} {L : List ConfigEndpoint} {index : EndpointIndex} {n : Nat}

theorem matchUser_eq (h : HoldsEndpoints L (index, n)) (u transport : String) :
    index.matchUser deps u transport = scanUser deps L u transport := by
  have husers : index.users u = L.filter fun e => IsUser u e := h.users u
  rw [EndpointIndex.matchUser, husers, List.find?_filter, scanUser]
  simp

theorem valueMatches_iff (ip : Addr) (value : String) :
    ValueMatches ip value ↔ (isExact ip value || isWithin ip value) = true := by
  cases haddr : parseAddr value with
  | some a =>
      have hprefix := parsePrefix_eq_none_of_parseAddr haddr
      simp [ValueMatches, isExact, isWithin, haddr, hprefix]
  | none =>
      cases hprefix : parsePrefix value with
      | none => simp [ValueMatches, isExact, isWithin, haddr, hprefix]
      | some p => simp [ValueMatches, isExact, isWithin, haddr, hprefix]

theorem filter_cidrs (V : List ((ConfigEndpoint × String) × Nat)) (ip : Addr) :
    ((V.filterMap compiled).filter fun cidr => cidr.pfx.contains ip).map
        (fun cidr => (⟨cidr.order, cidr.endpoint⟩ : IndexedEndpoint)) =
      (V.filter fun x => isWithin ip x.1.2).map numbered := by
  induction V with
  | nil => rfl
  | cons x V ih =>
      cases haddr : parseAddr x.1.2 with
      | some a => simpa [compiled, isWithin, haddr] using ih
      | none =>
          cases hprefix : parsePrefix x.1.2 with
          | none => simpa [compiled, isWithin, haddr, hprefix] using ih
          | some p =>
              by_cases hcontains : p.contains ip
              · simpa [compiled, isWithin, haddr, hprefix, hcontains, numbered] using ih
              · simpa [compiled, isWithin, haddr, hprefix, hcontains] using ih

theorem matchIP_eq (h : HoldsEndpoints L (index, n)) (ip : Addr) (transport : String) :
    index.matchIP deps ip transport = scanIP deps L ip transport := by
  have hexact : index.exactIPs ip = _ := h.values.exact ip
  have hcidrs : index.cidrs = _ := h.values.cidrs
  have hdisjoint : ∀ x ∈ (ipValues L).zipIdx, ¬ (isExact ip x.1.2 ∧ isWithin ip x.1.2) := fun x _ => by
    cases haddr : parseAddr x.1.2 <;> simp [isExact, isWithin, haddr]
  have hmerge := insertionSort_filter_append numbered IndexedEndpoint.order (pairwise_zipIdx _ 0) hdisjoint
  unfold EndpointIndex.matchIP scanIP
  simp only [hexact, hcidrs, filter_cidrs, hmerge]
  rw [List.find?_map, List.find?_filter]
  conv_rhs => rw [← find?_zipIdx (ipValues L) _ 0]
  rw [Option.map_map, Option.map_map]
  refine congrArg₂ Option.map rfl (congrArg (fun p => List.find? p _) ?_)
  funext x
  rw [Bool.eq_iff_iff]
  simp [valueMatches_iff, numbered]

end Stages

/-! ### The order of the map -/

theorem lookup_eq_of_perm {endpoints endpoints' : StringMap ConfigEndpoint}
    (h : endpoints.entries.Perm endpoints'.entries) (name : String) :
    endpoints.lookup name = endpoints'.lookup name := AList.perm_lookup h

theorem endpointNames_eq_of_perm {endpoints endpoints' : StringMap ConfigEndpoint}
    (h : endpoints.entries.Perm endpoints'.entries) (order : List String) :
    endpointNames endpoints order = endpointNames endpoints' order := by
  have hkeys : endpoints.keys.Perm endpoints'.keys := h.map Sigma.fst
  unfold endpointNames
  simp only [lookup_eq_of_perm h]
  congr 1
  rw [← sort_eq_insertionSort (endpoints.keys_nodup.filter _), ← sort_eq_insertionSort (endpoints'.keys_nodup.filter _),
    List.toFinset_eq_of_perm _ _ (hkeys.filter _)]

theorem buildEndpointIndex_eq_of_perm {endpoints endpoints' : StringMap ConfigEndpoint}
    (h : endpoints.entries.Perm endpoints'.entries) (order : List String) :
    buildEndpointIndex endpoints order = buildEndpointIndex endpoints' order := by
  have hat : endpointAt endpoints = endpointAt endpoints' := by
    funext name
    rw [endpointAt, endpointAt, lookup_eq_of_perm h]
  rw [buildEndpointIndex, buildEndpointIndex, endpointNames_eq_of_perm h, hat]

/-- The `user` and `ip` stages select what the ordered scan selects, nothing exactly when there is nothing
to select, and the result is the same for every order of the endpoints in the map that is decoded. -/
theorem matchEndpoint_scan {deps : Deps} {doc : YamlDocument} {c conf : Config}
    (hload : configLoad deps doc c = (conf, none)) {req : Request} {fromAddress : Uri} {s : Addr}
    (hfrom : req.fromAddress = some fromAddress) (hsource : sourceIP deps req = some s) :
    let L := declared conf.endpoints conf.endpointOrder
    let u := fromAddress.user
    let t := requestTransport deps req
    let selected := (scanUser deps L u t).or (scanIP deps L s.unmap t)
    (∃ index, conf.endpointIndex = some index ∧
        matchEndpoint deps conf req = .ok (selected.or (index.matchRest deps u t))) ∧
      (selected = none ↔ (∀ e ∈ L, ¬ (IsUser u e ∧ endpointTransportMatches deps e t)) ∧
        ∀ x ∈ ipValues L, ¬ (ValueMatches s.unmap x.2 ∧ endpointTransportMatches deps x.1 t)) ∧
      ∀ doc' c' conf', configLoad deps doc' c' = (conf', none) → doc'.endpointKeys = doc.endpointKeys →
        (doc'.decode c').1.endpoints.entries.Perm (doc.decode c).1.endpoints.entries →
        matchEndpoint deps conf' req = matchEndpoint deps conf req := by
  obtain ⟨horder, -, hentries, index, hindex, hbuild⟩ := configLoad_ok hload
  obtain ⟨n, hholds⟩ := holdsEndpoints_build hbuild
  rw [map_endpointNames] at hholds
  refine ⟨⟨index, hindex, ?_⟩, ?_, fun doc' c' conf' hload' hkeys hperm => ?_⟩
  · simp only [matchEndpoint, endpointIndex, hindex, hfrom, hsource, matchUser_eq hholds, matchIP_eq hholds]
    cases scanUser deps (declared conf.endpoints conf.endpointOrder) fromAddress.user (requestTransport deps req) with
    | some e => rfl
    | none =>
        cases scanIP deps (declared conf.endpoints conf.endpointOrder) s.unmap (requestTransport deps req) with
        | some e => rfl
        | none => rfl
  · simp [Option.or_eq_none_iff, scanUser, scanIP, List.find?_eq_none]
  · obtain ⟨horder', -, hentries', index', hindex', hbuild'⟩ := configLoad_ok hload'
    have hsame : conf'.endpoints.entries.Perm conf.endpoints.entries := by
      rw [hentries, hentries']
      exact hperm.map _
    rw [buildEndpointIndex_eq_of_perm hsame, horder', hkeys, ← horder, hbuild] at hbuild'
    obtain rfl := Except.ok.inj hbuild'
    simp only [matchEndpoint, endpointIndex, hindex, hindex']

/-- A prefix and an address within it, in that order. -/
def overlapEndpoints : StringMap ConfigEndpoint :=
  ⟨[⟨"office", { «match» := { type := "ip", values := ["10.0.0.0/8"] } }⟩,
    ⟨"trunk", { «match» := { type := "ip", values := ["10.1.2.3"] } }⟩], by rw [List.NodupKeys]; decide⟩

def overlapDocument : YamlDocument where
  decode c := ({ c with endpoints := overlapEndpoints }, none)
  endpointKeys := ["office", "trunk"]

def overlapRequest : Request := { fromAddress := some { user := "alice" }, source := "10.1.2.3:5060", transport := "UDP" }

theorem matchEndpoint_scan_overlap :
    let conf := (configLoad plainDeps overlapDocument {}).1
    let L := declared conf.endpoints conf.endpointOrder
    let t := requestTransport plainDeps overlapRequest
    ∃ index, conf.endpointIndex = some index ∧ matchEndpoint plainDeps conf overlapRequest =
      .ok (((scanUser plainDeps L "alice" t).or (scanIP plainDeps L (.v4 0x0a010203) t)).or
        (index.matchRest plainDeps "alice" t)) :=
  have hload : configLoad plainDeps overlapDocument {} = ((configLoad plainDeps overlapDocument {}).1, none) :=
    Prod.ext rfl (by decide)
  have hfrom : overlapRequest.fromAddress = some { user := "alice" } := rfl
  have hsource : sourceIP plainDeps overlapRequest = some (.v4 0x0a010203) := by decide
  (matchEndpoint_scan hload hfrom hsource).1

end Routing
