import Diagox.Registrar.Handler

/-!
# What the contacts of a REGISTER ask for

The two decisions over the contacts of a request, in closed form: which contacts are kept, when the interval
is long enough, and so what is asked of the registry and when the request is refused instead.
-/

namespace Registrar

open Sip Registry

/-- The Contact headers of a request, parsed. -/
def parsedContacts (deps : Deps) (req : Request) : List ContactHeader :=
  req.contacts.filterMap fun h => (readContact deps h).toOption

/-- The interval a contact asks for, if it is kept and asks for one, is at least `interval`. -/
def AsksAtLeast (deps : Deps) (interval : Int) (h : ContactHeader) : Prop :=
  contactExpires h = "0" ∨ contactExpires h = "" ∨
    ∃ exp, deps.parseDuration (contactExpires h ++ "s") = some exp ∧ interval ≤ exp

section Update

variable {deps : Deps} {req : Request} {checked : Checked} {update : Update}

theorem mapM_readContact {headers : List Header} {hdrs : List ContactHeader}
    (h : headers.mapM (readContact deps) = .ok hdrs) :
    hdrs = headers.filterMap fun x => (readContact deps x).toOption := by
  induction headers generalizing hdrs with
  | nil => exact (Except.ok.inj h).symm
  | cons x headers ih =>
      rw [List.mapM_cons] at h
      cases hx : readContact deps x with
      | error e => simp [hx, bind, Except.bind] at h
      | ok hdr =>
          cases hrest : headers.mapM (readContact deps) with
          | error e => simp [hx, hrest, bind, Except.bind] at h
          | ok rest =>
              simp only [hx, hrest, bind, Except.bind, pure, Except.pure, Except.ok.injEq] at h
              rw [← h, ih hrest, List.filterMap_cons_some]
              simp [hx, Except.toOption]

theorem keepContacts_ok {expiry expiry' : Int} {hdrs : List ContactHeader} {contacts : List Uri}
    (h : keepContacts deps expiry hdrs = .ok (contacts, expiry')) :
    contacts = (hdrs.filter fun h => contactExpires h ≠ "0").map (·.address) := by
  induction hdrs generalizing expiry contacts with
  | nil => exact (Prod.mk.inj (Except.ok.inj h)).1.symm
  | cons hdr hdrs ih =>
      unfold keepContacts at h
      by_cases hzero : contactExpires hdr = "0"
      · rw [if_pos hzero] at h
        simpa [hzero] using ih h
      · rw [if_neg hzero] at h
        -- the rest is kept with one interval or another
        suffices hkeep : ∃ rest e, contacts = hdr.address :: rest ∧ keepContacts deps e hdrs = .ok (rest, expiry') by
          obtain ⟨rest, e, rfl, hrest⟩ := hkeep
          simp [hzero, ih hrest]
        by_cases hempty : contactExpires hdr = ""
        · rw [if_pos hempty] at h
          rcases hrest : keepContacts deps expiry hdrs with err | ⟨rest, e⟩
          · simp [hrest, bind, Except.bind] at h
          · simp only [hrest, bind, Except.bind, pure, Except.pure, Except.ok.injEq, Prod.mk.injEq] at h
            obtain ⟨rfl, rfl⟩ := h
            exact ⟨rest, expiry, rfl, hrest⟩
        · rw [if_neg hempty] at h
          cases hexp : deps.parseDuration (contactExpires hdr ++ "s") with
          | none => simp [hexp] at h
          | some exp =>
              rcases hrest : keepContacts deps (min expiry exp) hdrs with err | ⟨rest, e⟩
              · simp [hexp, hrest, bind, Except.bind] at h
              · simp only [hexp, hrest, bind, Except.bind, pure, Except.pure, Except.ok.injEq, Prod.mk.injEq] at h
                obtain ⟨rfl, rfl⟩ := h
                exact ⟨rest, min expiry exp, rfl, hrest⟩

/-- The interval is the smallest one that is asked for. -/
theorem keepContacts_interval {expiry interval : Int} {hdrs : List ContactHeader} :
    (∃ contacts expiry', keepContacts deps expiry hdrs = .ok (contacts, expiry') ∧ interval ≤ expiry') ↔
      interval ≤ expiry ∧ ∀ h ∈ hdrs, AsksAtLeast deps interval h := by
  induction hdrs generalizing expiry with
  | nil => simp [keepContacts]
  | cons hdr hdrs ih =>
      rw [List.forall_mem_cons]
      -- a kept contact does not change the interval of the others
      have hkeep : ∀ e, (∃ contacts expiry',
            (keepContacts deps e hdrs).map (Prod.map (hdr.address :: ·) id) = .ok (contacts, expiry') ∧
              interval ≤ expiry') ↔
          ∃ contacts expiry', keepContacts deps e hdrs = .ok (contacts, expiry') ∧ interval ≤ expiry' := by
        intro e
        obtain err | ⟨contacts, expiry'⟩ := keepContacts deps e hdrs
        · simp [Except.map]
        · simp [Except.map]
      rw [keepContacts_cons]
      by_cases hzero : contactExpires hdr = "0"
      · rw [if_pos hzero, ih]
        simp [AsksAtLeast, hzero]
      · rw [if_neg hzero]
        by_cases hempty : contactExpires hdr = ""
        · rw [if_pos hempty, hkeep, ih]
          simp [AsksAtLeast, hempty]
        · rw [if_neg hempty]
          cases hexp : deps.parseDuration (contactExpires hdr ++ "s") with
          | none => simp [AsksAtLeast, hzero, hempty, hexp]
          | some exp =>
              simp only
              rw [hkeep, ih]
              simp [AsksAtLeast, hzero, hempty, hexp, and_assoc]

theorem contactUpdate_cases (h : contactUpdate deps req checked = .ok update) :
    (checked.expiry = 0 ∧ isWildcard (parsedContacts deps req) ∧ update = .delete) ∨
      (¬ (checked.expiry = 0 ∧ isWildcard (parsedContacts deps req)) ∧ ∃ binding,
        keepContacts deps checked.expiry (parsedContacts deps req) = .ok (binding.contacts, binding.expiry) ∧
        minExpiry ≤ binding.expiry ∧ binding.sourceAddr = req.source ∧ binding.transport = req.transport ∧
        update = .set (parsedContacts deps req) binding) := by
  unfold contactUpdate at h
  cases hread : req.contacts.mapM (readContact deps) with
  | error e => simp [hread, bind, Except.bind] at h
  | ok hdrs =>
      obtain rfl : hdrs = parsedContacts deps req := mapM_readContact hread
      simp only [hread, bind, Except.bind] at h
      by_cases hwild : checked.expiry = 0 ∧ isWildcard (parsedContacts deps req)
      · rw [if_pos hwild] at h
        obtain rfl : Update.delete = update := Except.ok.inj h
        exact .inl ⟨hwild.1, hwild.2, rfl⟩
      · rw [if_neg hwild] at h
        rcases hkeep : keepContacts deps checked.expiry (parsedContacts deps req) with err | ⟨contacts, expiry⟩
        · simp [hkeep] at h
        · simp only [hkeep] at h
          by_cases hbrief : expiry < minExpiry
          · simp [hbrief, throw, throwThe, MonadExceptOf.throw] at h
          · rw [if_neg hbrief] at h
            obtain rfl := Except.ok.inj h
            exact .inr ⟨hwild, _, rfl, not_lt.mp hbrief, rfl, rfl, rfl⟩

theorem contactUpdate_isOk_iff {hdrs : List ContactHeader} (hread : req.contacts.mapM (readContact deps) = .ok hdrs) :
    (∃ update, contactUpdate deps req checked = .ok update) ↔
      checked.expiry = 0 ∧ isWildcard hdrs ∨
        minExpiry ≤ checked.expiry ∧ ∀ h ∈ hdrs, AsksAtLeast deps minExpiry h := by
  by_cases hwild : checked.expiry = 0 ∧ isWildcard hdrs
  · simp [contactUpdate, hread, hwild, bind, Except.bind, pure, Except.pure]
  · rw [← keepContacts_interval, or_iff_right hwild]
    simp only [contactUpdate, hread, bind, Except.bind, if_neg hwild]
    obtain err | ⟨contacts, expiry⟩ := keepContacts deps checked.expiry hdrs
    · simp
    · by_cases hbrief : expiry < minExpiry
      · simp [hbrief, throw, throwThe, MonadExceptOf.throw]
      · simp [hbrief, pure, Except.pure]
        omega

theorem contactUpdate_ok (h : contactUpdate deps req checked = .ok update) :
    (checked.expiry = 0 ∧ isWildcard (parsedContacts deps req) ∧ update.binding = none) ∨
      (¬ (checked.expiry = 0 ∧ isWildcard (parsedContacts deps req)) ∧ ∃ binding, update.binding = some binding ∧
        binding.contacts = ((parsedContacts deps req).filter fun h => contactExpires h ≠ "0").map (·.address) ∧
        binding.sourceAddr = req.source ∧ binding.transport = req.transport) := by
  obtain ⟨hzero, hwild, rfl⟩ | ⟨hwild, binding, hkeep, -, hsource, htransport, rfl⟩ := contactUpdate_cases h
  · exact .inl ⟨hzero, hwild, rfl⟩
  · exact .inr ⟨hwild, binding, rfl, keepContacts_ok hkeep, hsource, htransport⟩

end Update

end Registrar
