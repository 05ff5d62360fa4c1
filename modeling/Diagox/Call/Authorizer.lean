import Diagox.Lib.ExpiringMap
import Diagox.Sip

/-!
# Challenges for inbound dialogs

`AuthorizerDigest` of `auth.go`. It keeps one challenge for every Call-ID, and each challenge starts a timer that
deletes what is there for its Call-ID ten seconds later. The credentials of a request are checked against the challenge
that is there, which stays: they are good for as many requests as come in time. The functions of the digest package are
parameters, and the calls of `Authorize` and the timers run one after another.
-/

namespace Authorizer

open Sip Run ExpiringMap

structure Challenge where
  realm : String
  domain : List String
  nonce : String
  algorithm : String
  deriving DecidableEq, Repr

structure Credentials where
  username : String := ""
  uri : String := ""
  response : String := ""
  deriving DecidableEq, Repr

structure Options where
  method : String
  uri : String
  username : String
  password : String
  deriving DecidableEq, Repr

/-- The digest package. -/
structure Digest where
  parseCredentials : String → Option Credentials
  digest : Challenge → Options → Option Credentials
  challengeString : Challenge → String

structure AuthorizerDigest where
  challenges : ExpiringMap String Challenge := {}
  passwords : String → Option String

inductive Verdict where
  | authorized
  | responded (res : Response)
  | panicked
  deriving DecidableEq, Repr

def challenge (nonce : String) : Challenge where
  realm := "gopbx"
  domain := ["localhost"]
  nonce := nonce
  algorithm := "MD5"

/-- How long a timer takes, in nanoseconds. -/
def lifetime : ℕ := 10 * 1000000000

variable (pkg : Digest)

/-- The check of a request with credentials. -/
def checkCredentials (a : AuthorizerDigest) (callID value : String) : Verdict :=
  match a.challenges.entries callID with
  | none => .responded ⟨400, "Challenge timeout", []⟩
  | some chal =>
      match pkg.parseCredentials value with
      | none => .responded ⟨400, "Invalid creds", []⟩
      | some cred =>
          match a.passwords cred.username with
          | none => .responded ⟨403, "Forbidden", []⟩
          | some pass =>
              match pkg.digest chal ⟨"INVITE", cred.uri, cred.username, pass⟩ with
              | none => .responded ⟨401, "Bad credentials", []⟩
              | some digCred =>
                  if cred.response ≠ digCred.response then .responded ⟨401, "Unathorized", []⟩ else .authorized

/-- `Authorize`, with the `uuid` it takes for a nonce. -/
def authorize (a : AuthorizerDigest) (req : Request) (uuid : String) : Verdict × AuthorizerDigest :=
  match req.callID with
  | none => (.panicked, a)
  | some callID =>
      match req.authorization with
      | some value => (checkCredentials pkg a callID value, a)
      | none =>
          let chal := challenge uuid
          (.responded ⟨401, "Unauthorized", [.other "WWW-Authenticate" (pkg.challengeString chal)]⟩,
            { a with challenges := a.challenges.step lifetime (.put callID chal) })

inductive Event where
  | authorize (req : Request) (uuid : String)
  | tick (d : ℕ)
  /-- A timer deletes the challenge. -/
  | fire (callID : String) (due : ℕ)

def step (a : AuthorizerDigest) : Event → AuthorizerDigest
  | .authorize req uuid => (authorize pkg a req uuid).2
  | .tick d => { a with challenges := a.challenges.step lifetime (.tick d) }
  | .fire callID due => { a with challenges := a.challenges.step lifetime (.fire callID due) }

/-- What becomes of the challenges. -/
def Event.op : Event → Option (Op String Challenge)
  | .authorize req uuid =>
      match req.callID, req.authorization with
      | some callID, none => some (.put callID (challenge uuid))
      | _, _ => none
  | .tick d => some (.tick d)
  | .fire callID due => some (.fire callID due)

def operations (events : List Event) : List (Op String Challenge) := events.filterMap Event.op

def PossibleEvent (a : AuthorizerDigest) (e : Event) : Prop := ∀ op ∈ e.op, Possible a.challenges op

/-- The credentials answer the challenge. -/
def Answers (passwords : String → Option String) (value : String) (chal : Challenge) : Prop :=
  ∃ cred pass digCred, pkg.parseCredentials value = some cred ∧ passwords cred.username = some pass ∧
    pkg.digest chal ⟨"INVITE", cred.uri, cred.username, pass⟩ = some digCred ∧ cred.response = digCred.response

section Runs

variable {pkg} {a : AuthorizerDigest} {passwords : String → Option String} {events : List Event} {callID value : String}

theorem step_challenges (a : AuthorizerDigest) (e : Event) :
    (step pkg a e).challenges = run (ExpiringMap.step lifetime) a.challenges e.op.toList := by
  cases e with
  | authorize req uuid =>
      cases hcallID : req.callID with
      | none => simp [step, authorize, Event.op, hcallID]
      | some callID =>
          cases hvalue : req.authorization with
          | none => simp [step, authorize, Event.op, hcallID, hvalue]
          | some value => simp [step, authorize, Event.op, hcallID, hvalue]
  | tick d => rfl
  | fire callID due => rfl

theorem step_passwords (a : AuthorizerDigest) (e : Event) : (step pkg a e).passwords = a.passwords := by
  cases e with
  | authorize req uuid =>
      simp only [step, authorize]
      split
      · rfl
      · split <;> rfl
  | tick d => rfl
  | fire callID due => rfl

theorem operations_cons (e : Event) (events : List Event) :
    operations (e :: events) = e.op.toList ++ operations events := by
  cases h : e.op with
  | none => simp [operations, h]
  | some op => simp [operations, h]

theorem run_challenges (a : AuthorizerDigest) (events : List Event) :
    (run (step pkg) a events).challenges = run (ExpiringMap.step lifetime) a.challenges (operations events) := by
  induction events generalizing a with
  | nil => rfl
  | cons e events ih => rw [run_cons, ih, step_challenges, operations_cons, run_append]

theorem run_passwords (a : AuthorizerDigest) (events : List Event) :
    (run (step pkg) a events).passwords = a.passwords := by
  induction events generalizing a with
  | nil => rfl
  | cons e events ih => rw [run_cons, ih, step_passwords]

theorem permitted_operations (h : Permitted (step pkg) PossibleEvent a events) :
    Permitted (ExpiringMap.step lifetime) Possible a.challenges (operations events) := by
  induction events generalizing a with
  | nil => trivial
  | cons e events ih =>
      have hrest := ih h.2
      rw [step_challenges] at hrest
      rw [operations_cons]
      cases hop : e.op with
      | none => simpa [hop] using hrest
      | some op =>
          rw [hop] at hrest
          exact ⟨h.1 op hop, hrest⟩

/-- A request is let in when its credentials answer the challenge that is there. -/
theorem checkCredentials_eq_authorized_iff : checkCredentials pkg a callID value = .authorized ↔
    ∃ chal, a.challenges.entries callID = some chal ∧ Answers pkg a.passwords value chal := by
  unfold checkCredentials Answers
  cases hchal : a.challenges.entries callID with
  | none => simp
  | some chal =>
      cases hcred : pkg.parseCredentials value with
      | none => simp
      | some cred =>
          cases hpass : a.passwords cred.username with
          | none => simp [hpass]
          | some pass =>
              cases hdig : pkg.digest chal ⟨"INVITE", cred.uri, cred.username, pass⟩ with
              | none => simp [hpass, hdig]
              | some digCred => simp [hpass, hdig]

end Runs

/-- A request with credentials is let in exactly when they answer the last challenge of its Call-ID and no timer of
that Call-ID has fired since. With timers that fire in time the challenge is less than ten seconds old, and it is
there as long as no challenge of the Call-ID is older than that. -/
theorem authorize_iff (passwords : String → Option String) {events : List Event}
    (hpossible : Permitted (step pkg) PossibleEvent { passwords := passwords } events) {req : Request}
    {callID value : String} (hcallID : req.callID = some callID) (hvalue : req.authorization = some value)
    (uuid : String) :
    let a := run (step pkg) { passwords := passwords } events
    ((authorize pkg a req uuid).1 = .authorized ↔
      ∃ chal after, PutBefore (operations events) callID chal after ∧ Answers pkg passwords value chal) ∧
    (Prompt a.challenges → ∀ chal after, PutBefore (operations events) callID chal after → elapsed after < lifetime) ∧
    ∀ before chal after, operations events = before ++ .put callID chal :: after → (∀ c, .put callID c ∉ after) →
      (∀ before' c after', operations events = before' ++ .put callID c :: after' → elapsed after' < lifetime) →
      PutBefore (operations events) callID chal after := by
  intro a
  have hchallenges : a.challenges = run (ExpiringMap.step lifetime) {} (operations events) :=
    run_challenges { passwords := passwords } events
  have hpasswords : a.passwords = passwords := run_passwords { passwords := passwords } events
  refine ⟨?_, fun hprompt chal after h => ?_, fun before chal after hops hlast hrecent => ?_⟩
  · have hauthorize : (authorize pkg a req uuid).1 = checkCredentials pkg a callID value := by
      simp [authorize, hcallID, hvalue]
    rw [hauthorize, checkCredentials_eq_authorized_iff, hpasswords, hchallenges]
    simp only [run_entries_iff]
    exact exists_congr fun chal => exists_and_right.symm
  · rw [hchallenges] at hprompt
    exact elapsed_lt_of_prompt h hprompt
  · have hpermitted := permitted_operations hpossible
    rw [hops] at hpermitted hrecent ⊢
    exact putBefore_of_recent hpermitted hlast hrecent

/-- A response that is the nonce and the password. -/
def plainDigest : Digest where
  parseCredentials value := (Strings.cut value ':').map fun (username, response) => ⟨username, "", response⟩
  digest chal opts := some { response := chal.nonce ++ opts.password }
  challengeString chal := chal.nonce

def alicePassword (username : String) : Option String := if username = "alice" then some "secret" else none

def answered : Request := { callID := some "c", authorization := some "alice:nsecret" }

/-- Alice is challenged, and answers nine seconds later. -/
def answeredEvents : List Event :=
  [.authorize { callID := some "c" } "n", .tick 9000000000, .authorize answered ""]

/-- The same answer lets her in again. -/
theorem authorize_iff_answered :
    let a := run (step plainDigest) { passwords := alicePassword } answeredEvents
    (authorize plainDigest a answered "").1 = .authorized ∧ elapsed (operations (answeredEvents.tail)) < lifetime := by
  have hpossible : Permitted (step plainDigest) PossibleEvent { passwords := alicePassword } answeredEvents := by
    simp [answeredEvents, Permitted, PossibleEvent, Event.op, answered, Possible]
  obtain ⟨hiff, hyoung, -⟩ := authorize_iff plainDigest alicePassword hpossible
    (show answered.callID = some "c" from rfl) (show answered.authorization = some "alice:nsecret" from rfl) ""
  have hops : operations answeredEvents = [.put "c" (challenge "n"), .tick 9000000000] := rfl
  have hput : PutBefore (operations answeredEvents) "c" (challenge "n") (operations answeredEvents.tail) :=
    ⟨[], hops, by simp [operations, answeredEvents, Event.op, answered, Touches]⟩
  refine ⟨?_, hyoung ?_ _ _ hput⟩
  · exact hiff.mpr
      ⟨_, _, hput, ⟨"alice", "", "nsecret"⟩, "secret", { response := "nsecret" }, by decide, rfl, rfl, rfl⟩
  rw [run_challenges, hops]
  simp [Prompt, ExpiringMap.step, lifetime]

end Authorizer
