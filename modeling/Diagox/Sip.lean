import Diagox.Lib.Strings

/-!
# SIP messages

What the program reads of the requests it is handed and writes into the responses it sends. A request is
described by what the accessors of the message library return for it; a header that is missing is `none`.
`Deps` collects the library functions themselves: they are code of other modules, so they are parameters.
-/

namespace Sip

/-- The parameters of a header: `Get` finds the value of a key, `Add` sets it. -/
abbrev Params := List (String × String)

def Params.get (ps : Params) (key : String) : Option String := ps.lookup key

def Params.add (ps : Params) (key value : String) : Params := (key, value) :: ps.filter (·.1 != key)

structure Uri where
  scheme : String := ""
  wildcard : Bool := false
  hierarhicalSlashes : Bool := false
  user : String := ""
  password : String := ""
  host : String := ""
  port : Int := 0
  uriParams : Params := []
  headers : Params := []
  deriving DecidableEq, Repr

structure ContactHeader where
  displayName : String := ""
  address : Uri
  params : Params := []
  deriving DecidableEq, Repr

/-- A header of a message: a parsed Contact, or a name and a value. -/
inductive Header where
  | contact (h : ContactHeader)
  | other (name value : String)
  deriving DecidableEq, Repr

structure Request where
  recipient : Uri := {}
  hasVia : Bool := true
  callID : Option String := some ""
  fromAddress : Option Uri := some {}
  toAddress : Option Uri := some {}
  /-- `GetHeaders("Contact")`. -/
  contacts : List Header := []
  /-- The value of `GetHeader("Expires")`. -/
  expires : Option String := none
  /-- The value of `GetHeader("Authorization")`. -/
  authorization : Option String := none
  source : String := ""
  destination : String := ""
  transport : String := ""
  deriving DecidableEq, Repr

/-- `RemoveHeader("Authorization")`. -/
def Request.removeAuthorization (req : Request) : Request := { req with authorization := none }

/-- A response, with the headers that were appended to those copied from the request. -/
structure Response where
  statusCode : Nat
  reason : String
  headers : List Header := []
  deriving DecidableEq, Repr

/-- What a goroutine stops with when nothing recovers it. -/
inductive Panic where
  | nilPointer
  deriving DecidableEq, Repr

structure DigestAuth where
  username : String := ""
  password : String := ""
  realm : String := ""
  expire : Int := 0
  deriving DecidableEq, Repr

/-- The functions the program calls in the message library and in `time`. -/
structure Deps where
  /-- `Uri.String`. -/
  uriString : Uri → String
  /-- `CallIDHeader.String`, of the value of the header. -/
  callIDString : String → String
  /-- The parser registered for Contact headers. -/
  parserContact : (name value : String) → Option Header
  /-- `time.ParseDuration`, in nanoseconds. -/
  parseDuration : String → Option Int
  /-- `sip.ParseAddr`: host and port of an address. -/
  parseAddr : String → Option (String × Int)
  /-- `sip.NetworkToLower`. -/
  networkToLower : String → String

/-! ### Ordinary messages

What the library functions give on messages with plain URIs, whole seconds and IPv4 addresses. -/

def plainUriString (u : Uri) : String :=
  (if u.scheme = "" then "sip" else u.scheme) ++ ":" ++ (if u.user = "" then "" else u.user ++ "@") ++ u.host ++
    (if u.port > 0 then ":" ++ toString u.port else "")

def plainNat (cs : List Char) : Option Nat :=
  if cs ≠ [] ∧ cs.all Char.isDigit then some (cs.foldl (fun n c => 10 * n + (c.toNat - '0'.toNat)) 0) else none

def plainParseDuration (s : String) : Option Int :=
  if s.toList.getLast? = some 's' then (plainNat s.toList.dropLast).map fun n => (n : Int) * 1000000000 else none

def plainParseAddr (s : String) : Option (String × Int) :=
  match Strings.cut s ':' with
  | none => none
  | some (host, port) => (plainNat port.toList).map fun n => (host, (n : Int))

def plainDeps : Deps where
  uriString := plainUriString
  callIDString value := "Call-ID: " ++ value
  parserContact _ _ := none
  parseDuration := plainParseDuration
  parseAddr := plainParseAddr
  networkToLower := Strings.toLower

theorem plainUriString_ne_empty (u : Uri) : plainUriString u ≠ "" := by
  intro h
  have := congrArg String.length h
  simp [plainUriString, String.length_append] at this

end Sip
