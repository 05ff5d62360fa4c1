import Diagox.Registrar.Contacts
import Diagox.Registrar.Ownership

/-!
# The interval of a binding

A binding is stored with the smallest interval that the request or one of the contacts that are kept has asked
for, and every contact is answered with it in whole seconds. The seconds go through a double on their way, which
is exact for half a year and then rounds the last nanoseconds before a full second up to it.
-/

namespace Registrar

open Sip Registry

/-- A duration is an `int64`. -/
def DurationsFit (deps : Deps) : Prop := ∀ s d, deps.parseDuration s = some d → d < 2 ^ 63

/-- The interval a contact asks for, if it is kept and asks for one. -/
def askedInterval (deps : Deps) (h : ContactHeader) : Option Int :=
  if contactExpires h = "0" ∨ contactExpires h = "" then none else deps.parseDuration (contactExpires h ++ "s")

/-- The intervals a request asks for, its own in front. -/
def askedIntervals (deps : Deps) (req : Request) : List Int :=
  (requestedExpiry deps req).toList ++ (parsedContacts deps req).filterMap (askedInterval deps)

/-- The value of the expires parameter of a contact in a response. -/
def announcedExpires : Header → Option String
  | .contact h => h.params.get "expires"
  | .other _ _ => none

section Intervals

variable {deps : Deps} {req : Request}

theorem le_of_askedInterval {h : ContactHeader} {interval : Int} (hsome : AsksAtLeast deps interval h) :
    ∀ d, askedInterval deps h = some d → interval ≤ d := by
  intro d hd
  unfold askedInterval at hd
  split_ifs at hd with hnone
  obtain hzero | hempty | ⟨exp, hexp, hle⟩ := hsome
  · exact absurd (.inl hzero) hnone
  · exact absurd (.inr hempty) hnone
  · rw [hexp] at hd
    exact Option.some.inj hd ▸ hle

theorem asksAtLeast_of_le {h : ContactHeader} {interval interval' : Int} (hread : AsksAtLeast deps interval' h)
    (hle : ∀ d, askedInterval deps h = some d → interval ≤ d) : AsksAtLeast deps interval h := by
  by_cases hzero : contactExpires h = "0"
  · exact .inl hzero
  by_cases hempty : contactExpires h = ""
  · exact .inr (.inl hempty)
  obtain h' | h' | ⟨exp, hexp, -⟩ := hread
  · exact absurd h' hzero
  · exact absurd h' hempty
  · refine .inr (.inr ⟨exp, hexp, hle exp ?_⟩)
    rw [askedInterval, if_neg (by simp [hzero, hempty]), hexp]

/-- The contacts are kept with the smallest interval that is asked for. -/
theorem isLeast_keepContacts {expiry expiry' : Int} (hexpiry : requestedExpiry deps req = some expiry)
    {contacts : List Uri}
    (h : keepContacts deps expiry (parsedContacts deps req) = .ok (contacts, expiry')) :
    IsLeast {d | d ∈ askedIntervals deps req} expiry' := by
  have hiff : ∀ interval, interval ≤ expiry' ↔
      interval ≤ expiry ∧ ∀ h ∈ parsedContacts deps req, AsksAtLeast deps interval h := by
    intro interval
    rw [← keepContacts_interval, h]
    simp
  obtain ⟨hle, hcontacts⟩ := (hiff expiry').mp le_rfl
  have hlower : ∀ d ∈ askedIntervals deps req, expiry' ≤ d := by
    intro d hd
    rw [askedIntervals, hexpiry, Option.toList_some, List.singleton_append, List.mem_cons, List.mem_filterMap] at hd
    obtain rfl | ⟨hdr, hmem, hasked⟩ := hd
    · exact hle
    · exact le_of_askedInterval (hcontacts hdr hmem) d hasked
  refine ⟨?_, fun d hd => hlower d hd⟩
  -- were it none of them, all would be larger, and so would be what is kept
  by_contra hnot
  have hlt : ∀ d ∈ askedIntervals deps req, expiry' + 1 ≤ d := fun d hd =>
    (hlower d hd).lt_of_ne fun heq => hnot (heq ▸ hd)
  have hmore : expiry' + 1 ≤ expiry' := by
    rw [hiff]
    refine ⟨hlt expiry (by simp [askedIntervals, hexpiry]), fun hdr hmem => ?_⟩
    refine asksAtLeast_of_le (hcontacts hdr hmem) fun d hasked => hlt d ?_
    exact List.mem_append_right _ (List.mem_filterMap.mpr ⟨hdr, hmem, hasked⟩)
  omega

theorem lt_of_mem_askedIntervals (hdeps : DurationsFit deps) {d : Int} (hd : d ∈ askedIntervals deps req) :
    d < 2 ^ 63 := by
  obtain hd | hd := List.mem_append.mp hd
  · have hrequested := Option.mem_toList.mp hd
    unfold requestedExpiry at hrequested
    split at hrequested
    · rw [← Option.some.inj hrequested]
      decide
    · exact hdeps _ _ hrequested
  · obtain ⟨hdr, -, hasked⟩ := List.mem_filterMap.mp hd
    unfold askedInterval at hasked
    split_ifs at hasked
    exact hdeps _ _ hasked

theorem announcedExpires_registered (hdrs : List ContactHeader) (binding : RegisterBinding (List Uri)) :
    ∀ header ∈ (registered hdrs binding).headers,
      announcedExpires header = some (toString (wholeSeconds binding.expiry)) := by
  intro header hheader
  obtain ⟨h, -, rfl⟩ := List.mem_map.mp hheader
  simp [announcedExpires, Params.get, Params.add]

end Intervals

/-- A binding that is stored has the smallest interval asked for, of at least 30 seconds. The contacts are all
answered with one number, and that is the seconds of this interval, which is not longer than it, if and only if
the double of the interval is not the next second. -/
theorem registered_interval_iff {ρ : Type} {deps : Deps} (hdeps : DurationsFit deps) {auth : Authenticators}
    {hostname : String} {req : Request} {checked : Checked} {c : Credential} {hdrs : List ContactHeader}
    {binding : RegisterBinding (List Uri)} (h : Admitted deps auth hostname req checked c (.set hdrs binding))
    {store : RegistryStore ρ} {m m' : ρ}
    (hset : store.registerBindingSet m (createRegId checked.aor.user hostname) binding = some (m', .ok ())) :
    ∃ interval, IsLeast {d | d ∈ askedIntervals deps req} interval ∧ binding.expiry = interval ∧ 30 * second ≤ interval ∧
      ∃ res n, (registerHandler deps auth store hostname m req).responses = [res] ∧ res.statusCode = 200 ∧
        res.headers.length = (parsedContacts deps req).length ∧
        (∀ header ∈ res.headers, announcedExpires header = some (toString n)) ∧
        (n = interval / second ∧ n * second ≤ interval ↔ RoundsDown interval) := by
  obtain ⟨-, -, hexpiry⟩ := checkRegister_ok h.check
  obtain ⟨-, -, hdelete⟩ | ⟨-, binding', hkeep, hmin, -, -, hupdate⟩ := contactUpdate_cases h.contacts
  · cases hdelete
  obtain ⟨rfl, rfl⟩ := Update.set.inj hupdate
  have hleast := isLeast_keepContacts hexpiry hkeep
  have hhandler : (registerHandler deps auth store hostname m req).responses =
      [registered (parsedContacts deps req) binding] := by
    rw [registerHandler_of_admitted h]
    simp [applyUpdate, hset]
  refine ⟨binding.expiry, hleast, rfl, hmin, registered (parsedContacts deps req) binding, wholeSeconds binding.expiry,
    hhandler, rfl, by simp [registered], announcedExpires_registered _ _, ?_⟩
  have hlow : second ≤ binding.expiry := le_trans (by decide) hmin
  rw [wholeSeconds_eq hlow (lt_of_mem_askedIntervals hdeps hleast.1)]
  have hfloor := Int.ediv_mul_le binding.expiry (show second ≠ 0 by decide)
  split_ifs with hdown
  · exact iff_of_true ⟨rfl, hfloor⟩ hdown
  · exact iff_of_false (fun hn => by omega) hdown

/-- `time.ParseDuration` on whole seconds and on one duration that ends a nanosecond before a full second. -/
def longDeps : Deps :=
  { plainDeps with
    parseDuration := fun s =>
      if s = "16777216.999999999s" then some 16777216999999999
      else (plainParseDuration s).filter fun d => decide (d < 2 ^ 63) }

theorem durationsFit_longDeps : DurationsFit longDeps := by
  intro s d hd
  simp only [longDeps] at hd
  split_ifs at hd
  · rw [← Option.some.inj hd]
    decide
  · simpa using (Option.filter_eq_some_iff.mp hd).2

theorem registered_interval_alice :
    ∃ interval, IsLeast {d | d ∈ askedIntervals longDeps (bindRequest "pbx" "alice")} interval ∧
      defaultExpiry = interval ∧ 30 * second ≤ interval ∧
      ∃ res n, (registerHandler longDeps trusting memoryStore "pbx" RegistryMemory.new (bindRequest "pbx" "alice")).responses =
          [res] ∧
        res.statusCode = 200 ∧ res.headers.length = (parsedContacts longDeps (bindRequest "pbx" "alice")).length ∧
        (∀ header ∈ res.headers, announcedExpires header = some (toString n)) ∧
        (n = interval / second ∧ n * second ≤ interval ↔ RoundsDown interval) :=
  registered_interval_iff durationsFit_longDeps (admitted_bindRequest longDeps "pbx" "alice") rfl

/-- Alice asks for 194 days and some hours, and for a nanosecond less with her contact. -/
def longRequest : Request :=
  { bindRequest "pbx" "alice" with
    contacts := [.contact { address := { host := "10.0.0.1" }, params := [("expires", "16777216.999999999")] }]
    expires := some "16777217" }

/-- The contact is answered with a second that the binding does not have. -/
theorem registered_rounds_up :
    let after := registerHandler longDeps trusting memoryStore "pbx" RegistryMemory.new longRequest
    (memoryStore.bindingOf after.registry (createRegId "alice" "pbx")).map (·.expiry) = some 16777216999999999 ∧
      (after.responses.flatMap fun res => res.headers.map announcedExpires) = [some (toString (16777217 : Int))] ∧
      (16777217 : Int) ≠ 16777216999999999 / second ∧ ¬ (16777217 : Int) * second ≤ 16777216999999999 := by
  decide +kernel

end Registrar
