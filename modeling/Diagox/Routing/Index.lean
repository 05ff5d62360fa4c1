import Diagox.Config.Types
import Diagox.Lib.NetIP
import Diagox.Lib.OrderedScan
import Mathlib.Data.List.Sort
import Mathlib.Data.String.Basic

/-!
# The endpoint index

`buildEndpointIndex` and `matchIP` of `routing.go`. The index keeps the `user` endpoints by name, the exact
addresses of `ip` endpoints in a map and their prefixes in a list. Every address and prefix has the number
of its value, counted over all endpoints, from which `matchIP` restores the order of the configuration.
-/

namespace Routing

open Sip Configuration NetIP

structure IndexedEndpoint where
  order : Nat
  endpoint : ConfigEndpoint
  deriving DecidableEq, Repr

structure CompiledCIDREndpoint where
  order : Nat
  pfx : Prefix
  endpoint : ConfigEndpoint
  deriving DecidableEq, Repr

/-- `endpointIndex`. A key that a map does not have reads as the empty list. -/
structure EndpointIndex where
  users : String → List ConfigEndpoint := fun _ => []
  exactIPs : Addr → List IndexedEndpoint := fun _ => []
  cidrs : List CompiledCIDREndpoint := []
  dynamicUser : Option ConfigEndpoint := none
  defaultEnd : Option ConfigEndpoint := none

/-- `endpointNames`: the names of `order` that exist, then the others sorted. -/
def endpointNames (endpoints : StringMap ConfigEndpoint) (order : List String) : List String :=
  let names := order.filter fun name => (endpoints.lookup name).isSome
  let extra := endpoints.keys.filter fun name => name ∉ names
  names ++ extra.insertionSort (· ≤ ·)

/-- One value of an `ip` endpoint, which is an address or a prefix. -/
def addValue (e : ConfigEndpoint) (state : EndpointIndex × Nat) (value : String) :
    Except ConfigError (EndpointIndex × Nat) :=
  let (index, valueOrder) := state
  match parseAddr value with
  | some ip =>
      let exact := index.exactIPs ip.unmap ++ [⟨valueOrder, e⟩]
      .ok ({ index with exactIPs := Function.update index.exactIPs ip.unmap exact }, valueOrder + 1)
  | none => match parsePrefix value with
    | none => .error (.invalidIP e.name value)
    | some pfx => .ok ({ index with cidrs := index.cidrs ++ [⟨valueOrder, pfx.masked, e⟩] }, valueOrder + 1)

def addEndpoint (state : EndpointIndex × Nat) (e : ConfigEndpoint) : Except ConfigError (EndpointIndex × Nat) :=
  let (index, valueOrder) := state
  if e.match.type = "user" then
    .ok ({ index with users := Function.update index.users e.name (index.users e.name ++ [e]) }, valueOrder)
  else if e.match.type = "ip" then e.match.values.foldlM (addValue e) (index, valueOrder)
  else if e.match.type = "user_dynamic" then
    .ok ({ index with dynamicUser := index.dynamicUser <|> some e }, valueOrder)
  else if e.match.type = "" then .ok ({ index with defaultEnd := index.defaultEnd <|> some e }, valueOrder)
  else .ok (index, valueOrder)

/-- The endpoint under a name, or the zero value. -/
def endpointAt (endpoints : StringMap ConfigEndpoint) (name : String) : ConfigEndpoint :=
  (endpoints.lookup name).getD {}

def buildEndpointIndex (endpoints : StringMap ConfigEndpoint) (order : List String) :
    Except ConfigError EndpointIndex := do
  let state ← ((endpointNames endpoints order).map (endpointAt endpoints)).foldlM addEndpoint ({}, 0)
  return state.1

/-- What adding one endpoint builds, the index has of all endpoints in order. -/
theorem buildEndpointIndex_invariant {Inv : List ConfigEndpoint → EndpointIndex × Nat → Prop}
    (hstep : ∀ done state e state', Inv done state → addEndpoint state e = .ok state' → Inv (done ++ [e]) state')
    (hempty : Inv [] ({}, 0)) {endpoints : StringMap ConfigEndpoint} {order : List String} {index : EndpointIndex}
    (h : buildEndpointIndex endpoints order = .ok index) :
    ∃ n, Inv ((endpointNames endpoints order).map (endpointAt endpoints)) (index, n) := by
  unfold buildEndpointIndex at h
  cases hfold : ((endpointNames endpoints order).map (endpointAt endpoints)).foldlM addEndpoint ({}, 0) with
  | error err => simp [hfold, bind, Except.bind] at h
  | ok state =>
      obtain rfl : state.1 = index := by simpa [hfold, bind, Except.bind, pure, Except.pure] using h
      have hinv : Inv ([] ++ _) state := OrderedScan.foldlM_invariant hstep hempty hfold
      exact ⟨state.2, hinv⟩

section Transport

variable (deps : Deps)

def normalizeTransport (transport : String) : String := deps.networkToLower (Strings.trimSpace transport)

def requestTransport (req : Request) : String := normalizeTransport deps req.transport

def endpointTransportMatches (endpoint : ConfigEndpoint) (transport : String) : Bool :=
  let want := normalizeTransport deps endpoint.match.transport
  if want = "" then true else transport ≠ "" && transport = want

def EndpointIndex.matchIP (index : EndpointIndex) (ip : Addr) (transport : String) : Option ConfigEndpoint :=
  let matches_ := index.exactIPs ip ++
    (index.cidrs.filter fun cidr => cidr.pfx.contains ip).map fun cidr => ⟨cidr.order, cidr.endpoint⟩
  let sorted := matches_.insertionSort fun a b => a.order ≤ b.order
  (sorted.find? fun m => endpointTransportMatches deps m.endpoint transport).map (·.endpoint)

end Transport

end Routing
