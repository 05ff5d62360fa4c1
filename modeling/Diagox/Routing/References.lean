import Diagox.Lib.OrderedScan
import Diagox.Routing.Router

/-!
# References between endpoints and routes

What `Validate` establishes about the names in a configuration, and that the router hands out endpoints of the
configuration only.
-/

namespace Routing

open Sip Configuration NetIP OrderedScan

/-! ### The endpoints in the index -/

/-- Every endpoint in an index is one of `S`. -/
structure EndpointIndex.Within (index : EndpointIndex) (S : ConfigEndpoint → Prop) : Prop where
  users : ∀ u, ∀ e ∈ index.users u, S e
  exactIPs : ∀ ip, ∀ x ∈ index.exactIPs ip, S x.endpoint
  cidrs : ∀ x ∈ index.cidrs, S x.endpoint
  dynamicUser : ∀ e ∈ index.dynamicUser, S e
  defaultEnd : ∀ e ∈ index.defaultEnd, S e

section Within

variable {S : ConfigEndpoint → Prop} {state state' : EndpointIndex × Nat} {e : ConfigEndpoint}

theorem within_empty : EndpointIndex.Within {} S where
  users u e he := by cases he
  exactIPs ip x hx := by cases hx
  cidrs x hx := by cases hx
  dynamicUser e he := by cases he
  defaultEnd e he := by cases he

theorem mem_update_append {κ α : Type} [DecidableEq κ] {f : κ → List α} {k k' : κ} {a x : α}
    (hx : x ∈ Function.update f k (f k ++ [a]) k') : x ∈ f k' ∨ x = a := by
  by_cases hk : k' = k
  · subst hk
    simpa using hx
  · rw [Function.update_of_ne hk] at hx
    exact .inl hx

theorem within_addValue {value : String} (h : state.1.Within S) (he : S e) (hadd : addValue e state value = .ok state') :
    state'.1.Within S := by
  unfold addValue at hadd
  cases haddr : parseAddr value with
  | some ip =>
      simp only [haddr, Except.ok.injEq] at hadd
      subst hadd
      refine ⟨h.users, fun ip' x hx => ?_, h.cidrs, h.dynamicUser, h.defaultEnd⟩
      obtain hx | rfl := mem_update_append hx
      · exact h.exactIPs ip' x hx
      · exact he
  | none =>
      cases hprefix : parsePrefix value with
      | none => simp [haddr, hprefix] at hadd
      | some pfx =>
          simp only [haddr, hprefix, Except.ok.injEq] at hadd
          subst hadd
          refine ⟨h.users, h.exactIPs, fun x hx => ?_, h.dynamicUser, h.defaultEnd⟩
          obtain hx | hx := List.mem_append.mp hx
          · exact h.cidrs x hx
          · rw [List.mem_singleton.mp hx]
            exact he

theorem within_addEndpoint (h : state.1.Within S) (he : S e) (hadd : addEndpoint state e = .ok state') :
    state'.1.Within S := by
  unfold addEndpoint at hadd
  simp only at hadd
  split_ifs at hadd
  · rw [← Except.ok.inj hadd]
    refine ⟨fun u x hx => ?_, h.exactIPs, h.cidrs, h.dynamicUser, h.defaultEnd⟩
    obtain hx | rfl := mem_update_append hx
    · exact h.users u x hx
    · exact he
  · let Inv := fun (_ : List String) (s : EndpointIndex × Nat) => s.1.Within S
    have hstep : ∀ done s value s', Inv done s → addValue e s value = .ok s' → Inv (done ++ [value]) s' :=
      fun _ _ _ _ hs => within_addValue hs he
    exact @foldlM_invariant _ _ _ _ Inv hstep _ [] _ _ h hadd
  · rw [← Except.ok.inj hadd]
    refine ⟨h.users, h.exactIPs, h.cidrs, fun x hx => ?_, h.defaultEnd⟩
    cases hd : state.1.dynamicUser with
    | some y => exact h.dynamicUser x (by simpa [hd] using hx)
    | none =>
        obtain rfl : e = x := by simpa [hd] using hx
        exact he
  · rw [← Except.ok.inj hadd]
    refine ⟨h.users, h.exactIPs, h.cidrs, h.dynamicUser, fun x hx => ?_⟩
    cases hd : state.1.defaultEnd with
    | some y => exact h.defaultEnd x (by simpa [hd] using hx)
    | none =>
        obtain rfl : e = x := by simpa [hd] using hx
        exact he
  · rw [← Except.ok.inj hadd]
    exact h

theorem within_build {endpoints : StringMap ConfigEndpoint} {order : List String} {index : EndpointIndex}
    (h : buildEndpointIndex endpoints order = .ok index) :
    index.Within fun e => ∃ name, endpoints.lookup name = some e := by
  let S := fun e => ∃ name, endpoints.lookup name = some e
  have hnames : ∀ e ∈ (endpointNames endpoints order).map (endpointAt endpoints), S e := by
    intro e he
    obtain ⟨name, hname, rfl⟩ := List.mem_map.mp he
    have hsome : (endpoints.lookup name).isSome := by
      unfold endpointNames at hname
      obtain hname | hname := List.mem_append.mp hname
      · exact (List.mem_filter.mp hname).2
      · have hkeys := List.mem_of_mem_filter ((List.perm_insertionSort (· ≤ ·) _).mem_iff.mp hname)
        exact AList.lookup_isSome.mpr hkeys
    obtain ⟨e, he⟩ := Option.isSome_iff_exists.mp hsome
    exact ⟨name, by rw [endpointAt, he, Option.getD_some]⟩
  let Inv := fun (done : List ConfigEndpoint) (s : EndpointIndex × Nat) => (∀ e ∈ done, S e) → s.1.Within S
  have hstep : ∀ done s e s', Inv done s → addEndpoint s e = .ok s' → Inv (done ++ [e]) s' := by
    intro done s e s' hs hadd hall
    rw [List.forall_mem_append] at hall
    exact within_addEndpoint (hs hall.1) (hall.2 e (List.mem_singleton_self e)) hadd
  have hempty : Inv [] ({}, 0) := fun _ => within_empty
  obtain ⟨n, hinv⟩ := buildEndpointIndex_invariant hstep hempty h
  exact hinv hnames

theorem exists_of_matchEndpoint {deps : Deps} {doc : YamlDocument} {c conf : Config}
    (hload : configLoad deps doc c = (conf, none)) {req : Request} (h : matchEndpoint deps conf req = .ok (some e)) :
    ∃ name, conf.endpoints.lookup name = some e := by
  obtain ⟨-, -, -, index, hindex, hbuild⟩ := configLoad_ok hload
  have hwithin := within_build hbuild
  unfold matchEndpoint at h
  simp only [endpointIndex, hindex] at h
  split at h
  · cases h
  · next fromAddress hfrom =>
    split at h
    · next e' huser =>
      obtain rfl : e' = e := by simpa using h
      exact hwithin.users fromAddress.user e' (List.mem_of_find?_eq_some huser)
    · split at h
      · simp at h
      · next ip hip =>
        split at h
        · next e' hmatch =>
          obtain rfl : e' = e := by simpa using h
          obtain ⟨x, hx, rfl⟩ := Option.map_eq_some_iff.mp hmatch
          have hmem := (List.perm_insertionSort _ _).mem_iff.mp (List.mem_of_find?_eq_some hx)
          obtain hmem | hmem := List.mem_append.mp hmem
          · exact hwithin.exactIPs _ x hmem
          · obtain ⟨cidr, hcidr, rfl⟩ := List.mem_map.mp hmem
            exact hwithin.cidrs cidr (List.mem_of_mem_filter hcidr)
        · have hrest := Except.ok.inj h
          unfold EndpointIndex.matchRest at hrest
          split at hrest
          · next e' hdynamic =>
            obtain rfl : e' = e := by simpa using hrest
            exact hwithin.dynamicUser e' (Option.filter_eq_some_iff.mp hdynamic).1
          · exact hwithin.defaultEnd e (Option.filter_eq_some_iff.mp hrest).1

end Within

theorem mem_of_matchIncomingRoute {conf : Config} {toUser routeID : String} {r : ConfigRoute}
    (h : matchIncomingRoute conf toUser routeID = some (r, true)) :
    ∃ routeCtx, ⟨routeID, routeCtx⟩ ∈ conf.routes.entries ∧ r ∈ routeCtx.getD [] := by
  obtain ⟨routeCtx, hlookup, hroute⟩ := Option.map_eq_some_iff.mp h
  refine ⟨routeCtx, AList.mem_lookup_iff.mp hlookup, ?_⟩
  obtain ⟨hr, hmatched⟩ := Prod.mk.inj hroute
  cases hfind : (routeCtx.getD []).find? (routeMatches toUser) with
  | some r' =>
      rw [hfind, Option.getD_some] at hr
      exact hr ▸ List.mem_of_find?_eq_some hfind
  | none =>
      -- the zero value does not count as matched
      rw [hfind] at hmatched
      exact absurd hmatched (by decide)

/-! ### What `Validate` establishes -/

section Validate

variable {conf : Config}

theorem forM_eq_ok {α ε : Type} {f : α → Except ε Unit} {xs : List α} :
    xs.forM f = .ok () ↔ ∀ x ∈ xs, f x = .ok () := by
  induction xs with
  | nil => simp [pure, Except.pure]
  | cons x xs ih =>
      rw [List.forall_mem_cons, ← ih]
      show (f x >>= fun _ => xs.forM f) = _ ↔ _
      cases hx : f x with
      | error err => simp [bind, Except.bind]
      | ok u => simp [bind, Except.bind]

theorem bind_eq_ok {α β ε : Type} {x : Except ε α} {f : α → Except ε β} {b : β} :
    (x >>= f) = .ok b ↔ ∃ a, x = .ok a ∧ f a = .ok b := by
  cases x with
  | error err => simp [bind, Except.bind]
  | ok a => simp [bind, Except.bind]

/-- Every route passes its check, and every endpoint has its route context. -/
theorem validate_ok (h : validate conf = .ok ()) :
    (∀ x ∈ conf.routes.entries, ∀ r ∈ x.2.getD [], validateRoute conf.endpoints x.1 r = .ok ()) ∧
      ∀ x ∈ conf.endpoints.entries, x.2.route ∈ conf.routes := by
  obtain ⟨-, -, h⟩ := bind_eq_ok.mp h
  split_ifs at h with hdynamic
  · obtain ⟨_, hthrow, -⟩ := bind_eq_ok.mp h
    cases hthrow
  · obtain ⟨-, -, h⟩ := bind_eq_ok.mp h
    obtain ⟨_, hroutes, h⟩ := bind_eq_ok.mp h
    refine ⟨fun x hx => forM_eq_ok.mp (forM_eq_ok.mp hroutes x hx), fun x hx => ?_⟩
    have hexists := forM_eq_ok.mp h x hx
    by_contra hmissing
    rw [if_neg hmissing] at hexists
    cases hexists

end Validate

end Routing
