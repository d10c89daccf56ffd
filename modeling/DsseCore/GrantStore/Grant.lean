import DsseCore.Go.Json
import DsseCore.Go.TimeFormat

/-!
# Grants

A grant binds a verified user to a tenant for a bounded time.  This module holds the record, the copy that tags it
with the features a reader must know, its validation and the comparison of two records by what they authorize.
-/

namespace DsseCore.IdpRegistry

open Go

/-- `hex.DecodeString`, of which the callers use the number of bytes only. -/
def hexBytes? (s : String) : Option ℕ :=
  let l := s.toList
  if l.all (fun c => isDigit c || ('a' ≤ c && c ≤ 'f') || ('A' ≤ c && c ≤ 'F')) && l.length % 2 == 0 then
    some (l.length / 2)
  else none

/-- A part of a security identifier: a decimal number of at most `bits` bits in its shortest form. -/
def validSubauthority (bits : ℕ) (part : String) : Bool :=
  match decimal? part.toList with
  | some n => n < 2 ^ bits && toString n == part
  | none => false

def validWindowsPrincipal (s : String) : Bool :=
  match split s '-' with
  | revision :: authority :: subauthorities =>
    1 ≤ subauthorities.length && subauthorities.length ≤ 15 && revision == "1" &&
      validSubauthority 48 authority && subauthorities.all (validSubauthority 32)
  | _ => false

def validMacOSPrincipal (s : String) : Bool :=
  let l := s.toList
  l.length == 36 && l[8]? == some '-' && l[13]? == some '-' && l[18]? == some '-' && l[23]? == some '-' &&
    s == toLower s && hexBytes? (String.ofList (l.filter (· != '-'))) == some 16

def validOSPrincipal (s : String) : Bool :=
  if 160 < s.utf8ByteSize then false
  else if hasPrefix s "windows:S-" then validWindowsPrincipal (trimPrefix s "windows:S-")
  else if hasPrefix s "macos:" then validMacOSPrincipal (trimPrefix s "macos:")
  else false

def validOSSession (s : String) : Bool := hexBytes? s == some 32 && s == toLower s

end DsseCore.IdpRegistry

namespace DsseCore.GrantStore

open Go IdpRegistry

/-- One minted authorization.  `unknownFields` are the members of a document that this reader has no field for. -/
structure Grant where
  osPrincipal : String := ""
  osSession : String := ""
  requiredFeatures : List String := []
  unknownFields : Map Json := ∅
  reauthenticationStartedAt : String := ""
  authenticationRequestID : String := ""
  grantID : String := ""
  tenantID : String := ""
  userID : String := ""
  userEmail : String := ""
  username : String := ""
  userDisplayName : String := ""
  deviceID : String := ""
  idPID : String := ""
  issuer : String := ""
  providerConfigSHA256 : String := ""
  acr : String := ""
  amr : List String := []
  authTime : String := ""
  scope : String := ""
  issuedAt : String := ""
  expiresAt : String := ""
  revoked : Bool := false
  consumedAt : String := ""
  reauthenticateAfter : String := ""
  deriving DecidableEq

def featureSingleRequest : String := "single-request-v1"
def featureDeviceUser : String := "device-user-session-v1"
def featureScopedAuthorization : String := "scoped-authorization-v1"
def featureRevocationReauthentication : String := "revocation-reauthentication-v1"

namespace Grant

def requiresModernReader (g : Grant) : Bool :=
  g.reauthenticateAfter != "" || g.osPrincipal != "" || g.osSession != "" || g.authenticationRequestID != "" ||
    g.reauthenticationStartedAt != "" || !g.requiredFeatures.isEmpty

def supported (g : Grant) : Bool :=
  g.requiredFeatures.all fun f =>
    f == featureSingleRequest || f == featureDeviceUser || f == featureScopedAuthorization ||
      f == featureRevocationReauthentication

@[simps] def withRevoked (g : Grant) (b : Bool) : Grant := { g with revoked := b }

@[simp] theorem withRevoked_self (g : Grant) : g.withRevoked g.revoked = g := rfl

@[simps] def withBoundary (g : Grant) (boundary : String) : Grant := { g with reauthenticateAfter := boundary }

@[simps] def withConsumed (g : Grant) (consumed : String) : Grant := { g with consumedAt := consumed }

end Grant

/-- `features` with `feature` appended where it is needed and missing. -/
def requireFeature (needed : Bool) (feature : String) (features : List String) : List String :=
  if needed && !features.contains feature then features ++ [feature] else features

def addReauthenticationFeature (g : Grant) : Grant :=
  { g with requiredFeatures :=
      requireFeature (g.reauthenticateAfter != "") featureRevocationReauthentication g.requiredFeatures }

def addDeviceUserFeature (g : Grant) : Grant :=
  { g with requiredFeatures :=
      requireFeature (g.osPrincipal != "" || g.osSession != "") featureDeviceUser g.requiredFeatures }

def addSingleRequestFeature (g : Grant) : Grant :=
  { g with requiredFeatures :=
      requireFeature (g.authenticationRequestID != "") featureSingleRequest g.requiredFeatures }

/-- The independent copy of a grant also carries the tags of the features it uses. -/
def cloneGrant (g : Grant) : Grant := addSingleRequestFeature (addDeviceUserFeature (addReauthenticationFeature g))

def cloneGrants (grants : Map Grant) : Map Grant := grants.map fun _ g => cloneGrant g

/-- The tags `cloneGrant` leaves on a grant. -/
def featureTags (g : Grant) : List String :=
  requireFeature (g.authenticationRequestID != "") featureSingleRequest
    (requireFeature (g.osPrincipal != "" || g.osSession != "") featureDeviceUser
      (requireFeature (g.reauthenticateAfter != "") featureRevocationReauthentication g.requiredFeatures))

theorem cloneGrant_eq (g : Grant) : cloneGrant g = { g with requiredFeatures := featureTags g } := rfl

section

variable (g : Grant)

@[simp] theorem cloneGrant_osPrincipal : (cloneGrant g).osPrincipal = g.osPrincipal := by rw [cloneGrant_eq]
@[simp] theorem cloneGrant_osSession : (cloneGrant g).osSession = g.osSession := by rw [cloneGrant_eq]
@[simp] theorem cloneGrant_unknownFields : (cloneGrant g).unknownFields = g.unknownFields := by rw [cloneGrant_eq]
@[simp] theorem cloneGrant_reauthenticationStartedAt : (cloneGrant g).reauthenticationStartedAt = g.reauthenticationStartedAt := by rw [cloneGrant_eq]
@[simp] theorem cloneGrant_authenticationRequestID : (cloneGrant g).authenticationRequestID = g.authenticationRequestID := by rw [cloneGrant_eq]
@[simp] theorem cloneGrant_grantID : (cloneGrant g).grantID = g.grantID := by rw [cloneGrant_eq]
@[simp] theorem cloneGrant_tenantID : (cloneGrant g).tenantID = g.tenantID := by rw [cloneGrant_eq]
@[simp] theorem cloneGrant_userID : (cloneGrant g).userID = g.userID := by rw [cloneGrant_eq]
@[simp] theorem cloneGrant_deviceID : (cloneGrant g).deviceID = g.deviceID := by rw [cloneGrant_eq]
@[simp] theorem cloneGrant_idPID : (cloneGrant g).idPID = g.idPID := by rw [cloneGrant_eq]
@[simp] theorem cloneGrant_issuer : (cloneGrant g).issuer = g.issuer := by rw [cloneGrant_eq]
@[simp] theorem cloneGrant_scope : (cloneGrant g).scope = g.scope := by rw [cloneGrant_eq]
@[simp] theorem cloneGrant_authTime : (cloneGrant g).authTime = g.authTime := by rw [cloneGrant_eq]
@[simp] theorem cloneGrant_issuedAt : (cloneGrant g).issuedAt = g.issuedAt := by rw [cloneGrant_eq]
@[simp] theorem cloneGrant_expiresAt : (cloneGrant g).expiresAt = g.expiresAt := by rw [cloneGrant_eq]
@[simp] theorem cloneGrant_revoked : (cloneGrant g).revoked = g.revoked := by rw [cloneGrant_eq]
@[simp] theorem cloneGrant_consumedAt : (cloneGrant g).consumedAt = g.consumedAt := by rw [cloneGrant_eq]
@[simp] theorem cloneGrant_reauthenticateAfter : (cloneGrant g).reauthenticateAfter = g.reauthenticateAfter := by rw [cloneGrant_eq]

end

@[simp] theorem mem_requireFeature {needed : Bool} {feature f : String} {l : List String} :
    f ∈ requireFeature needed feature l ↔ f ∈ l ∨ (needed = true ∧ f = feature) := by
  unfold requireFeature
  split
  · next h =>
    rw [Bool.and_eq_true] at h
    simp [h.1]
  rename_i h
  refine ⟨.inl,fun hf => hf.elim id ?_⟩
  rintro ⟨hn, rfl⟩
  simpa [hn] using h

theorem requireFeature_of_mem {needed : Bool} {feature : String} {l : List String}
    (h : needed = true → feature ∈ l) : requireFeature needed feature l = l := by
  cases needed with
  | false => rfl
  | true => simp [requireFeature,h rfl]

theorem mem_featureTags {g : Grant} {f : String} : f ∈ featureTags g ↔ f ∈ g.requiredFeatures ∨
    (g.reauthenticateAfter ≠ "" ∧ f = featureRevocationReauthentication) ∨
    ((g.osPrincipal ≠ "" ∨ g.osSession ≠ "") ∧ f = featureDeviceUser) ∨
    (g.authenticationRequestID ≠ "" ∧ f = featureSingleRequest) := by
  simp [featureTags,or_assoc]

/-- A grant that carries the tags of the features it uses is its own copy. -/
def Tagged (g : Grant) : Prop := featureTags g = g.requiredFeatures

theorem tagged_cloneGrant (g : Grant) : Tagged (cloneGrant g) := by
  have h := @mem_featureTags g
  have h1 : requireFeature (g.reauthenticateAfter != "") featureRevocationReauthentication (featureTags g) =
      featureTags g :=
    requireFeature_of_mem fun hn => h.mpr (.inr (.inl ⟨by simpa using hn,rfl⟩))
  have h2 : requireFeature (g.osPrincipal != "" || g.osSession != "") featureDeviceUser (featureTags g) =
      featureTags g :=
    requireFeature_of_mem fun hn => h.mpr (.inr (.inr (.inl ⟨by simpa using hn,rfl⟩)))
  have h3 : requireFeature (g.authenticationRequestID != "") featureSingleRequest (featureTags g) = featureTags g :=
    requireFeature_of_mem fun hn => h.mpr (.inr (.inr (.inr ⟨by simpa using hn,rfl⟩)))
  change requireFeature (g.authenticationRequestID != "") featureSingleRequest
    (requireFeature (g.osPrincipal != "" || g.osSession != "") featureDeviceUser
      (requireFeature (g.reauthenticateAfter != "") featureRevocationReauthentication (featureTags g))) =
    featureTags g
  rw [h1,h2,h3]

@[simp] theorem cloneGrant_cloneGrant (g : Grant) : cloneGrant (cloneGrant g) = cloneGrant g := by
  rw [cloneGrant_eq,tagged_cloneGrant]

theorem requiresModernReader_cloneGrant (g : Grant) :
    (cloneGrant g).requiresModernReader = g.requiresModernReader := by
  have hempty : (featureTags g).isEmpty = true ↔ ∀ f, f ∉ featureTags g := by
    rw [List.isEmpty_iff,List.eq_nil_iff_forall_not_mem]
  rw [Bool.eq_iff_iff]
  simp only [Grant.requiresModernReader,cloneGrant_eq,Bool.or_eq_true,bne_iff_ne,Bool.not_eq_true',
    ← Bool.not_eq_true,hempty,List.isEmpty_iff,mem_featureTags]
  constructor
  · rintro (h | h)
    · exact .inl h
    push Not at h
    obtain ⟨f, hf | hf | hf | hf⟩ := h
    · exact .inr (List.ne_nil_of_mem hf)
    · exact .inl (.inl (.inl (.inl (.inl hf.1))))
    · rcases hf.1 with h | h
      · exact .inl (.inl (.inl (.inl (.inr h))))
      · exact .inl (.inl (.inl (.inr h)))
    · exact .inl (.inl (.inr hf.1))
  · rintro (h | h)
    · exact .inl h
    · obtain ⟨f, hf⟩ := List.exists_mem_of_ne_nil _ h
      exact .inr fun hnone => hnone f (.inl hf)

def unix (t : Time) : Int := t.fdiv Time.second

def minute : Int := 60 * Time.second

def validDeviceUser (g : Grant) : Bool :=
  (g.osPrincipal == "" && g.osSession == "") ||
    (g.deviceID != "" && g.issuer != "" && validOSPrincipal g.osPrincipal && validOSSession g.osSession)

def validFeature (g : Grant) (f : String) : Bool :=
  !(f == "" || 128 < f.utf8ByteSize || (f == featureSingleRequest && g.authenticationRequestID == "") ||
    (f == featureDeviceUser && (g.osPrincipal == "" || g.osSession == "")) ||
    (f == featureScopedAuthorization && g.scope == ""))

def validProvider (g : Grant) : Bool :=
  (g.providerConfigSHA256 == "" && g.issuer == "") ||
    (hexBytes? g.providerConfigSHA256 == some 32 && g.issuer != "" && g.userID != "" && g.idPID != "")

def validIdentifier (s : String) : Bool := s != "" && trimSpace s == s && !s.toList.contains '\x00'

def validRequest (g : Grant) : Bool :=
  g.authenticationRequestID == "" ||
    (g.reauthenticationStartedAt != "" && g.deviceID != "" && g.authenticationRequestID.utf8ByteSize ≤ 128)

def validConsumption (g : Grant) (issued expires : Time) : Bool :=
  g.consumedAt == "" ||
    match Time.parseRFC3339 g.consumedAt with
    | some consumed => g.revoked && g.authenticationRequestID != "" && !(consumed < issued) && !(expires < consumed)
    | none => false

def validBoundary (g : Grant) : Bool :=
  g.reauthenticateAfter == "" ||
    match Time.parseRFC3339 g.reauthenticateAfter with
    | some after => g.revoked && 0 < unix after
    | none => false

def validReauthentication (g : Grant) (issued : Time) : Bool :=
  g.reauthenticationStartedAt == "" ||
    match Time.parseRFC3339 g.reauthenticationStartedAt, Time.parseRFC3339 g.authTime with
    | some started, some auth =>
      0 < unix started && !(issued < started) && !(auth < started) && !(issued < auth) && g.issuer != "" &&
        g.scope != ""
    | _, _ => false

def validAuthTime (g : Grant) (issued : Time) : Bool :=
  g.authTime == "" ||
    match Time.parseRFC3339 g.authTime with
    | some auth => 0 < unix auth && !(issued + minute < auth)
    | none => false

def validateGrant (g : Grant) : Bool :=
  validDeviceUser g && g.requiredFeatures.all (validFeature g) && validProvider g &&
    (validIdentifier g.grantID && validIdentifier g.tenantID) &&
    match Time.parseRFC3339 g.issuedAt, Time.parseRFC3339 g.expiresAt with
    | some issued, some expires =>
      issued < expires && validRequest g && validConsumption g issued expires && validBoundary g &&
        validReauthentication g issued && validAuthTime g issued
    | _, _ => false

structure Lifetime (g : Grant) (issued expires : Time) : Prop where
  issuedAt : Time.parseRFC3339 g.issuedAt = some issued
  expiresAt : Time.parseRFC3339 g.expiresAt = some expires
  lt : issued < expires

structure Valid (g : Grant) (issued expires : Time) : Prop extends Lifetime g issued expires where
  deviceUser : validDeviceUser g = true
  features : ∀ f ∈ g.requiredFeatures, validFeature g f = true
  provider : validProvider g = true
  grantID : validIdentifier g.grantID = true
  tenantID : validIdentifier g.tenantID = true
  request : validRequest g = true
  consumption : validConsumption g issued expires = true
  boundary : validBoundary g = true
  reauthentication : validReauthentication g issued = true
  authTime : validAuthTime g issued = true

theorem validateGrant_iff {g : Grant} : validateGrant g = true ↔ ∃ issued expires, Valid g issued expires := by
  constructor
  · intro h
    unfold validateGrant at h
    simp only [Bool.and_eq_true,List.all_eq_true] at h
    obtain ⟨⟨⟨⟨hos, hf⟩, hp⟩, hg, ht⟩, h⟩ := h
    split at h
    · next issued expires hi he =>
      simp only [Bool.and_eq_true,decide_eq_true_eq] at h
      obtain ⟨⟨⟨⟨⟨hlt, hr⟩, hc⟩, hb⟩, hre⟩, ha⟩ := h
      exact ⟨issued,expires,⟨hi,he,hlt⟩,hos,hf,hp,hg,ht,hr,hc,hb,hre,ha⟩
    · cases h
  · rintro ⟨issued, expires, h⟩
    simp only [validateGrant,h.issuedAt,h.expiresAt,Bool.and_eq_true,List.all_eq_true,decide_eq_true_eq]
    exact ⟨⟨⟨⟨h.deviceUser,h.features⟩,h.provider⟩,h.grantID,h.tenantID⟩,
      ⟨⟨⟨⟨h.lt,h.request⟩,h.consumption⟩,h.boundary⟩,h.reauthentication⟩,h.authTime⟩

theorem validateGrant_cloneGrant (g : Grant) : validateGrant (cloneGrant g) = validateGrant g := by
  have hfeatures : validDeviceUser g = true →
      ((featureTags g).all (validFeature g) = g.requiredFeatures.all (validFeature g)) := by
    intro hos
    rw [Bool.eq_iff_iff,List.all_eq_true,List.all_eq_true]
    refine ⟨fun h f hf => h f (mem_featureTags.mpr (.inl hf)),fun h f hf => ?_⟩
    rcases mem_featureTags.mp hf with hf | ⟨-, rfl⟩ | ⟨hu, rfl⟩ | ⟨hr, rfl⟩
    · exact h f hf
    · rfl
    · -- a validated endpoint identity has both of its parts
      have hboth : g.osPrincipal ≠ "" ∧ g.osSession ≠ "" := by
        simp only [validDeviceUser,Bool.or_eq_true,Bool.and_eq_true,beq_iff_eq] at hos
        rcases hos with ⟨h1, h2⟩ | ⟨⟨-, h1⟩, h2⟩
        · exact absurd hu (by simp [h1,h2])
        refine ⟨fun he => ?_,fun he => ?_⟩
        · rw [he] at h1
          exact absurd h1 (by decide +kernel)
        · rw [he] at h2
          exact absurd h2 (by decide +kernel)
      have hparts : (g.osPrincipal == "" || g.osSession == "") = false := by simp [hboth]
      change (!(g.osPrincipal == "" || g.osSession == "" || false)) = true
      rw [hparts]
      rfl
    · change (!(g.authenticationRequestID == "" || false || false)) = true
      simpa using hr
  change (validDeviceUser g && (featureTags g).all (validFeature g) && validProvider g && _ && _) =
    (validDeviceUser g && g.requiredFeatures.all (validFeature g) && validProvider g && _ && _)
  cases hos : validDeviceUser g with
  | false => rfl
  | true =>
    rw [hfeatures hos]
    rfl

/-- What a record authorizes: everything but its denial state. -/
def authorization (g : Grant) : Grant :=
  { cloneGrant g with revoked := false, consumedAt := "", reauthenticateAfter := "" }

def sameAuthorization (a b : Grant) : Bool := authorization a == authorization b

/-- The instant of a boundary; `time.Parse` leaves the zero time on an error. -/
def boundaryTime (text : String) : Time := (Time.parseRFC3339 text).getD Time.zero

def laterBoundary (a b : String) : String := if boundaryTime a < boundaryTime b then b else a

/-- Only evidence that a released decoder left out is added; nothing already known is replaced. -/
def authorityEvidenceUpgrade (old full : Grant) : Bool :=
  if old.revoked || full.revoked || old.issuer != "" || old.providerConfigSHA256 != "" || old.requiresModernReader ||
      full.requiresModernReader || !old.unknownFields.isEmpty || !full.unknownFields.isEmpty || full.issuer == "" ||
      full.providerConfigSHA256 == "" then false
  else if old.authTime != "" && old.authTime != full.authTime then false
  else sameAuthorization old
    { cloneGrant full with issuer := "", providerConfigSHA256 := "", authTime := old.authTime }

end DsseCore.GrantStore
