import Diagox.Routing.Default

/-!
# An address as a value and as a prefix

An `ip` endpoint with an address, and the same endpoint with the prefix of all bits of that address. The
index keeps the address after `Unmap` and the prefix as it is written, and looks both up with a source after
`Unmap`: they take the same requests unless the address is an IPv4-mapped one, whose prefix takes none.
-/

namespace Routing

open Sip Configuration NetIP

/-- The endpoint with this address or prefix. -/
def withValue (e : ConfigEndpoint) (value : String) : ConfigEndpoint :=
  { e with «match» := { type := "ip", values := [value], transport := e.match.transport } }

/-- A configuration with one endpoint. -/
def soleEndpoint (name : String) (e : ConfigEndpoint) : Config where
  endpoints := AList.singleton name e
  endpointOrder := [name]

/-- A request comes from the endpoint with this value. -/
def Takes (deps : Deps) (name : String) (e : ConfigEndpoint) (value : String) (req : Request) : Prop :=
  matchEndpoint deps (soleEndpoint name (withValue e value)) req = .ok (some (withValue e value))

theorem inOrder_soleEndpoint (name : String) (e : ConfigEndpoint) : inOrder (soleEndpoint name e) = [e] := by
  have hlookup : (AList.singleton name e : StringMap ConfigEndpoint).lookup name = some e := by
    apply List.dlookup_cons_eq
  have hkeys : (AList.singleton name e : StringMap ConfigEndpoint).keys = [name] := rfl
  simp [inOrder, endpointNames, endpointAt, soleEndpoint, hlookup, hkeys]

section Takes

variable {deps : Deps} {name : String} {e : ConfigEndpoint} {value : String} {req : Request}

theorem buildEndpointIndex_withValue (name : String) (e : ConfigEndpoint)
    (h : (parseAddr value).isSome ∨ (parsePrefix value).isSome) :
    ∃ index n, endpointIndex (soleEndpoint name (withValue e value)) = .ok index ∧
      HoldsEndpoints [withValue e value] (index, n) ∧ HoldsFirst [withValue e value] (index, n) := by
  obtain ⟨index, hbuild⟩ : ∃ index, buildEndpointIndex (soleEndpoint name (withValue e value)).endpoints [name] =
      .ok index := by
    have horder : (endpointNames (soleEndpoint name (withValue e value)).endpoints [name]).map
        (endpointAt (soleEndpoint name (withValue e value)).endpoints) = [withValue e value] :=
      inOrder_soleEndpoint name (withValue e value)
    unfold buildEndpointIndex
    rw [horder]
    cases haddr : parseAddr value with
    | some a => exact ⟨_, by simp [addEndpoint, withValue, addValue, haddr, bind, Except.bind, pure, Except.pure]; rfl⟩
    | none =>
        obtain ⟨p, hp⟩ := Option.isSome_iff_exists.mp (h.resolve_left (by simp [haddr]))
        exact ⟨_, by simp [addEndpoint, withValue, addValue, haddr, hp, bind, Except.bind, pure, Except.pure]; rfl⟩
  obtain ⟨n, hholds⟩ := holdsEndpoints_build hbuild
  obtain ⟨m, hfirst⟩ := holdsFirst_build hbuild
  have horder : (endpointNames (soleEndpoint name (withValue e value)).endpoints [name]).map
      (endpointAt (soleEndpoint name (withValue e value)).endpoints) = [withValue e value] :=
    inOrder_soleEndpoint name (withValue e value)
  rw [horder] at hholds hfirst
  exact ⟨index, n, hbuild, hholds, hfirst.dynamicUser, hfirst.defaultEnd⟩

theorem takes_iff (h : (parseAddr value).isSome ∨ (parsePrefix value).isSome) :
    Takes deps name e value req ↔ req.fromAddress ≠ none ∧ Accepts deps e (requestTransport deps req) ∧
      ∃ src, sourceIP deps req = some src ∧ ValueMatches src.unmap value := by
  obtain ⟨index, n, hindex, hholds, hdynamic, hdefault⟩ := buildEndpointIndex_withValue name e h
  unfold Takes matchEndpoint
  rw [hindex]
  cases hfrom : req.fromAddress with
  | none => simp
  | some fromAddress =>
      have haccepts : endpointTransportMatches deps (withValue e value) (requestTransport deps req) = true ↔
          Accepts deps e (requestTransport deps req) := endpointTransportMatches_iff deps (withValue e value) _
      have huser : scanUser deps [withValue e value] fromAddress.user (requestTransport deps req) = none := by
        simp [scanUser, IsUser, withValue]
      have hrest : index.matchRest deps fromAddress.user (requestTransport deps req) = none := by
        have hdyn : index.dynamicUser = none := by simpa [withValue] using hdynamic
        have hdef : index.defaultEnd = none := by simpa [withValue] using hdefault
        simp [EndpointIndex.matchRest, hdyn, hdef]
      simp only [matchUser_eq hholds, huser, matchIP_eq hholds]
      cases sourceIP deps req with
      | none => simp
      | some src =>
          have hvalues : ipValues [withValue e value] = [(withValue e value, value)] := by simp [ipValues, withValue]
          by_cases hmatch : ValueMatches src.unmap value ∧
              endpointTransportMatches deps (withValue e value) (requestTransport deps req) = true
          · have hscan : scanIP deps [withValue e value] src.unmap (requestTransport deps req) =
                some (withValue e value) := by
              simp [scanIP, hvalues, hmatch]
            simp [hscan, haccepts.mp hmatch.2, hmatch.1]
          · have hscan : scanIP deps [withValue e value] src.unmap (requestTransport deps req) = none := by
              simpa [scanIP, hvalues] using hmatch
            rw [haccepts] at hmatch
            simp only [hscan, hrest]
            simpa [and_comm] using hmatch

end Takes

theorem valueMatches_address {text : String} {a : Addr} (ha : parseAddr text = some a) (ip : Addr) :
    ValueMatches ip text ↔ ip = a.unmap := by
  have hvalue : ValueMatches ip text ↔ a.unmap = ip := by
    simp [ValueMatches, ha, parsePrefix_eq_none_of_parseAddr ha]
  exact hvalue.trans eq_comm

theorem valueMatches_fullLength {text : String} {a : Addr} (ha : parseAddr text = some a) (hzone : a.Unzoned)
    (ip : Addr) : ValueMatches ip (text ++ a.fullLength) ↔ ip = a := by
  have hprefix := parsePrefix_fullLength ha hzone
  have hnone : parseAddr (text ++ a.fullLength) = none := by
    by_contra hne
    obtain ⟨b, hb⟩ := Option.ne_none_iff_exists'.mp hne
    rw [parsePrefix_eq_none_of_parseAddr hb] at hprefix
    cases hprefix
  simp [ValueMatches, hnone, hprefix, contains_prefix_ hzone]

/-- An endpoint takes a request with an address as it does with the prefix of all bits of that address, except
when the address is an IPv4-mapped one and the request comes from the IPv4 address it stands for, over a
transport of the endpoint. -/
theorem takes_fullLength_iff (deps : Deps) (name : String) (e : ConfigEndpoint) (req : Request) {text : String}
    {a : Addr} (ha : parseAddr text = some a) (hzone : a.Unzoned) :
    (Takes deps name e text req ↔ Takes deps name e (text ++ a.fullLength) req) ↔
      ¬ (a.IsMapped ∧ req.fromAddress ≠ none ∧ Accepts deps e (requestTransport deps req) ∧
        ∃ src, sourceIP deps req = some src ∧ src.unmap = a.unmap) := by
  rw [takes_iff (.inl (by simp [ha])), takes_iff (.inr (by simp [parsePrefix_fullLength ha hzone]))]
  simp only [valueMatches_address ha, valueMatches_fullLength ha hzone]
  by_cases hmapped : a.IsMapped
  · -- no source is a mapped address once it is unmapped
    have hnever : ∀ src : Addr, src.unmap ≠ a := by
      intro src heq
      exact src.not_isMapped_unmap (heq ▸ hmapped)
    simp [hmapped, hnever]
  · rw [Addr.unmap_eq_self_iff.mpr hmapped]
    simp [hmapped]

theorem takes_fullLength_v4 :
    Takes plainDeps "trunk" {} "10.1.2.3" { fromAddress := some {}, source := "10.1.2.3:5060", transport := "UDP" } ↔
      Takes plainDeps "trunk" {} "10.1.2.3/32"
        { fromAddress := some {}, source := "10.1.2.3:5060", transport := "UDP" } := by
  have ha : parseAddr "10.1.2.3" = some (.v4 0x0a010203) := by decide
  exact (takes_fullLength_iff plainDeps "trunk" {} _ ha trivial).mpr fun h => h.1

/-- A trunk at `::ffff:10.1.2.3` is reached from 10.1.2.3, a trunk at `::ffff:10.1.2.3/128` is not. -/
theorem not_takes_fullLength :
    ¬ ∀ (deps : Deps) (name : String) (e : ConfigEndpoint) (req : Request) (text : String) (a : Addr),
      parseAddr text = some a → a.Unzoned →
      (Takes deps name e text req ↔ Takes deps name e (text ++ a.fullLength) req) := by
  intro h
  have ha : parseAddr "::ffff:10.1.2.3" = some (.v6 0xffff0a010203 "") := by decide
  have hsame := h plainDeps "trunk" {} { fromAddress := some {}, source := "10.1.2.3:5060", transport := "UDP" }
    "::ffff:10.1.2.3" _ ha rfl
  revert hsame
  unfold Takes
  decide

end Routing
