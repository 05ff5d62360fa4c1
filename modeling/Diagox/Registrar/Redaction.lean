import Diagox.Registrar.Bearer

/-!
# The headers in the log

The request to the provider is logged with its headers. A value is masked if its name looks like that of a secret. The
name of the provider header is the operator's choice, and its value is a credential under any name.
-/

namespace Registrar

open Strings

/-- The headers that are logged of the request to the provider. -/
def loggedHeaders (conf : SIPRegisterBearerAuthConfig) (ext : Provider) (auth : UserBearerAuth) :
    Option (String → Option (List (List UInt8))) :=
  match (userAuthenticateBearer conf ext auth).1.head? with
  | some (.request _ _ headers _ _) => some headers
  | _ => none

/-- A name in front of the first colon that is not blank. -/
def AcceptedName (name : String) : Prop := ':' ∉ name.toList ∧ trimSpace name ≠ ""

/-- Two secrets that no mask tells apart: short ones, or longer ones with the same ends. -/
def MaskAlike (v v' : String) : Prop :=
  (utf8Bytes v).length ≤ 8 ∧ (utf8Bytes v').length ≤ 8 ∨
    8 < (utf8Bytes v).length ∧ 8 < (utf8Bytes v').length ∧ (utf8Bytes v).take 4 = (utf8Bytes v').take 4 ∧
      (utf8Bytes v).drop ((utf8Bytes v).length - 4) = (utf8Bytes v').drop ((utf8Bytes v').length - 4)

section Redaction

variable {name v v' : String}

theorem utf8Bytes_injective (h : utf8Bytes v = utf8Bytes v') : v = v' := by
  apply String.toByteArray_inj.mp
  apply ByteArray.ext
  exact Array.toList_inj.mp h

theorem maskSecret_eq (hv : v ≠ "") (hv' : v' ≠ "") (h : MaskAlike v v') : maskSecret v = maskSecret v' := by
  unfold maskSecret
  rw [if_neg hv, if_neg hv']
  obtain ⟨hshort, hshort'⟩ | ⟨hlong, hlong', hfront, hback⟩ := h
  · rw [if_pos hshort, if_pos hshort']
  · rw [if_neg hlong.not_ge, if_neg hlong'.not_ge, hfront, hback]

theorem bearerAuthProviderHeader_spec (hname : AcceptedName name) (hv : trimSpace v = v) :
    bearerAuthProviderHeader (name ++ ": " ++ v) = .ok (trimSpace name, v) := by
  have hchars : (name ++ ": " ++ v).toList = name.toList ++ ':' :: ' ' :: v.toList := by simp
  have hname' : ∀ c ∈ name.toList, (c != ':') = true := by
    intro c hc
    rw [bne_iff_ne]
    rintro rfl
    exact hname.1 hc
  have hcut : cut (name ++ ": " ++ v) ':' = some (name, String.singleton ' ' ++ v) := by
    unfold cut
    rw [hchars, if_pos (by simp), List.takeWhile_append_of_pos hname', List.takeWhile_cons_of_neg (by decide),
      List.dropWhile_append_of_pos hname', List.dropWhile_cons_of_neg (by decide), List.append_nil,
      String.ofList_toList]
    simp
  unfold bearerAuthProviderHeader
  rw [hcut]
  dsimp only
  rw [if_neg hname.2, trimSpace_cons (by decide), hv]

/-! ### Names -/

theorem lowerChar_case (c : Char) : lowerChar c.toUpper = lowerChar c ∧ lowerChar c.toLower = lowerChar c := by
  by_cases hascii : c.toNat < 128
  · have hall : ∀ n : Fin 128, lowerChar (Char.ofNat n).toUpper = lowerChar (Char.ofNat n) ∧
        lowerChar (Char.ofNat n).toLower = lowerChar (Char.ofNat n) := by decide +kernel
    simpa using hall ⟨c.toNat, hascii⟩
  · have hupper : c.toUpper = c :=
      dif_neg fun h => hascii (lt_of_le_of_lt (UInt32.le_iff_toNat_le.mp h.2) (by decide))
    have hlower : c.toLower = c :=
      dif_neg fun h => hascii (lt_of_le_of_lt (UInt32.le_iff_toNat_le.mp h.2) (by decide))
    rw [hupper, hlower]
    exact ⟨rfl, rfl⟩

theorem lower_canonicalChars (upper : Bool) (chars : List Char) :
    (canonicalChars upper chars).map lowerChar = chars.map lowerChar := by
  induction chars generalizing upper with
  | nil => rfl
  | cons c chars ih =>
      rw [canonicalChars, List.map_cons, List.map_cons, ih]
      cases upper with
      | true => exact congrArg (· :: _) (lowerChar_case c).1
      | false => exact congrArg (· :: _) (lowerChar_case c).2

theorem toLower_canonicalMIMEHeaderKey (name : String) : toLower (canonicalMIMEHeaderKey name) = toLower name := by
  unfold canonicalMIMEHeaderKey
  split_ifs
  · rw [toLower, String.toList_ofList, lower_canonicalChars]
    rfl
  · rfl

theorem isSensitiveHeader_canonical (name : String) :
    isSensitiveHeader (canonicalMIMEHeaderKey name) = isSensitiveHeader name := by
  unfold isSensitiveHeader
  rw [toLower_canonicalMIMEHeaderKey]

/-- Under one name two values are logged alike if the name is sensitive or they are the same. -/
theorem redacted_set_iff (header : HTTPHeader) (hv : v ≠ "") (hv' : v' ≠ "") (h : MaskAlike v v') :
    redactedHTTPHeaders (header.set name v) = redactedHTTPHeaders (header.set name v') ↔
      isSensitiveHeader name = true ∨ v = v' := by
  constructor
  · intro heq
    have hvalue := congrFun heq (canonicalMIMEHeaderKey name)
    cases hsensitive : isSensitiveHeader name with
    | true => exact .inl rfl
    | false =>
        right
        simp only [redactedHTTPHeaders, HTTPHeader.set, isSensitiveHeader_canonical, hsensitive] at hvalue
        apply utf8Bytes_injective
        simpa using hvalue
  · rintro (hsensitive | rfl)
    · funext key
      unfold redactedHTTPHeaders HTTPHeader.set
      by_cases hkey : key = canonicalMIMEHeaderKey name
      · subst hkey
        simp [isSensitiveHeader_canonical, hsensitive, maskSecret_eq hv hv' h]
      · simp [hkey]
    · rfl

theorem loggedHeaders_eq {conf : SIPRegisterBearerAuthConfig} {ext : Provider} {auth : UserBearerAuth}
    {header : HTTPHeader} (url : String) (hurl : conf.url ≠ "") (hrequest : ext.newRequest conf.url = .ok url)
    (hheader : requestHeader conf auth = .ok header) :
    loggedHeaders conf ext auth = some (redactedHTTPHeaders header) := by
  unfold loggedHeaders userAuthenticateBearer
  rw [if_neg hurl, hrequest]
  dsimp only
  rw [hheader]
  dsimp only
  cases ext.do_ url header with
  | error err => rfl
  | ok resp => cases hbody : resp.body <;> simp [hbody]

end Redaction

/-- The provider's credential is kept out of the log under a sensitive name only: under any other name the headers that
are logged tell every two values apart. -/
theorem loggedHeaders_eq_iff (conf : SIPRegisterBearerAuthConfig) (ext : Provider) (auth : UserBearerAuth)
    {url : String} (hurl : conf.url ≠ "") (hrequest : ext.newRequest conf.url = .ok url) {name v v' : String}
    (hname : AcceptedName name) (hv : v ≠ "") (hv' : v' ≠ "") (htrim : trimSpace v = v) (htrim' : trimSpace v' = v')
    (h : MaskAlike v v') :
    loggedHeaders { conf with header := name ++ ": " ++ v } ext auth =
        loggedHeaders { conf with header := name ++ ": " ++ v' } ext auth ↔
      isSensitiveHeader (trimSpace name) = true ∨ v = v' := by
  let accept := HTTPHeader.set (fun _ => none) "Accept" "application/json"
  let header := accept.set "Authorization" ("Bearer " ++ auth.token)
  have hlogged : ∀ v, trimSpace v = v → loggedHeaders { conf with header := name ++ ": " ++ v } ext auth =
      some (redactedHTTPHeaders (header.set (trimSpace name) v)) := by
    intro v htrim
    have hne : name ++ ": " ++ v ≠ "" := by
      intro hempty
      rw [← String.toList_inj] at hempty
      simp at hempty
    have hheader : requestHeader { conf with header := name ++ ": " ++ v } auth =
        .ok (header.set (trimSpace name) v) := by
      unfold requestHeader
      rw [if_pos hne, bearerAuthProviderHeader_spec hname htrim]
    refine loggedHeaders_eq url ?_ ?_ hheader
    · exact hurl
    · exact hrequest
  rw [hlogged v htrim, hlogged v' htrim', Option.some.injEq]
  exact redacted_set_iff header hv hv' h

theorem loggedHeaders_eq_iff_apiKey :
    loggedHeaders { url := "http://idp", header := "X-API-Key" ++ ": " ++ "swordfish-2" } aliceProvider
          ⟨"alice", "t0ken", ""⟩ =
        loggedHeaders { url := "http://idp", header := "X-API-Key" ++ ": " ++ "sworxx-ish-2" } aliceProvider
          ⟨"alice", "t0ken", ""⟩ ↔
      isSensitiveHeader (trimSpace "X-API-Key") = true ∨ "swordfish-2" = "sworxx-ish-2" :=
  loggedHeaders_eq_iff { url := "http://idp" } aliceProvider ⟨"alice", "t0ken", ""⟩ (by decide) rfl
    ⟨by decide, by decide⟩ (by decide) (by decide) (by decide) (by decide) (.inr (by decide +kernel))

/-- `X-Provider-Auth` does not look like the name of a secret. -/
theorem not_loggedHeaders_eq :
    ¬ ∀ (conf : SIPRegisterBearerAuthConfig) (ext : Provider) (auth : UserBearerAuth) (name v v' : String),
      AcceptedName name → v ≠ "" → v' ≠ "" → trimSpace v = v → trimSpace v' = v' → MaskAlike v v' →
      loggedHeaders { conf with header := name ++ ": " ++ v } ext auth =
        loggedHeaders { conf with header := name ++ ": " ++ v' } ext auth := by
  intro h
  have heq := h { url := "http://idp" } aliceProvider ⟨"alice", "t0ken", ""⟩ "X-Provider-Auth" "secret-1" "secret-2"
    ⟨by decide, by decide⟩ (by decide) (by decide) (by decide) (by decide) (.inl (by decide +kernel))
  have hvalue := congrArg (Option.map fun headers => headers "X-Provider-Auth") heq
  revert hvalue
  decide +kernel

end Registrar
