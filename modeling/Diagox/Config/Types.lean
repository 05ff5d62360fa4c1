import Diagox.Sip
import Mathlib.Data.List.AList

/-!
# The configuration file

The types of `config.go`. A map is an `AList`: its entries stand in the order in which a `range` over the
map visits them, which is any order.
-/

namespace Configuration

open Sip

abbrev StringMap (α : Type) := AList fun _ : String => α

structure ConfigEndpointMedia where
  type : String := ""
  deriving DecidableEq, Repr

structure ConfigTransport where
  transport : String := ""
  bind : String := ""
  port : Int := 0
  externalHost : String := ""
  externalPort : Int := 0
  externalMediaIP : String := ""
  rewriteContact : Bool := false
  deriving DecidableEq, Repr

structure ConfigAuth where
  type : String := ""
  username : String := ""
  password : String := ""
  deriving DecidableEq, Repr

structure ConfigMatch where
  type : String := ""
  values : List String := []
  transport : String := ""
  deriving DecidableEq, Repr

structure ConfigEndpoint where
  name : String := ""
  «match» : ConfigMatch := {}
  auth : ConfigAuth := {}
  uri : String := ""
  route : String := ""
  transportID : String := ""
  media : ConfigEndpointMedia := {}
  contactHDR : String := ""
  contactHDRParsed : Option ContactHeader := none
  useRegistry : Bool := false
  deriving DecidableEq, Repr

structure ConfigRouteFallback where
  enabled : Bool := false
  endpoints : List String := []
  fallbacksCodes : List Int := []
  fallbacksTimeout : Bool := false
  deriving DecidableEq, Repr

structure ConfigRouteHangup where
  code : Int := 0
  reason : String := ""
  deriving DecidableEq, Repr

structure ConfigRoute where
  id : String := ""
  endpointName : String := ""
  fallback : ConfigRouteFallback := {}
  «match» : String := ""
  stripPrefix : String := ""
  useRegistry : Bool := false
  recording : Bool := false
  hangup : ConfigRouteHangup := {}
  /-- `none` is the nil map. -/
  sipHeaders : Option (List (String × String)) := none
  sipHeadersPass : List String := []
  deriving DecidableEq, Repr

def configAuthTypeDigest : String := "digest"

def configAuthTypeBearer : String := "bearer"

def ConfigAuth.authType (a : ConfigAuth) : String :=
  let authType := Strings.toLower (Strings.trimSpace a.type)
  if authType = "" ∧ (a.username ≠ "" ∨ a.password ≠ "") then configAuthTypeDigest else authType

def endpointDigestIdentity (endpoint : ConfigEndpoint) : String :=
  if endpoint.auth.username ≠ "" then endpoint.auth.username else endpoint.name

inductive ConfigError where
  /-- Reported by the YAML package. -/
  | yaml (text : String)
  | contactHeader (endpoint : String)
  /-- No error but a panic: the contact parser has made another header. -/
  | notContact (endpoint : String)
  | invalidIP (endpoint value : String)
  | authType (endpoint type : String)
  | dynamicUserEndpoints
  | endpointMissing (route endpoint id : String)
  | hangupEndpoint (route endpoint : String)
  | routeMissing (route endpoint : String)
  deriving DecidableEq, Repr

/-- The text of an error, up to what it wraps. `quote` is the verb `%q`. -/
def ConfigError.text (quote : String → String) : ConfigError → String
  | .yaml text => text
  | .contactHeader endpoint => "failed to parse contact header on endpoint=" ++ endpoint
  | .notContact endpoint => endpoint
  | .invalidIP endpoint value => "endpoint " ++ quote endpoint ++ ": invalid ip match value " ++ quote value
  | .authType endpoint type => "endpoint " ++ quote endpoint ++ ": auth type " ++ quote type ++ " is not supported"
  | .dynamicUserEndpoints => "only one endpoint with match type " ++ quote "user_dynamic" ++ " is supported"
  | .endpointMissing route endpoint id =>
      "route context " ++ quote route ++ ": Endpoint " ++ quote endpoint ++ " does not exists for DID " ++ quote id
  | .hangupEndpoint route endpoint =>
      "route context " ++ quote route ++ ": Endpoint name " ++ quote endpoint ++
        " with registry can not be used together with hangup"
  | .routeMissing route endpoint => "Route " ++ quote route ++ " does not exists for endpoint " ++ quote endpoint

end Configuration
