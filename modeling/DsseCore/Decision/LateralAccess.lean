import DsseCore.Decision.Evaluate

/-!
# What opens a lateral hop

The east-west plane allows a request only where a rule, a grant, an attested device or the stage of the roll-out says
so, and the device a request claims to be is not among the things it asks when the transport names one.
-/

namespace DsseCore.Decision

open Go Model Time EastWestGrant

variable {req : DecisionRequest}
variable {rules : List EastWestRule} {rule : EastWestRule}

/-- The rule that decides a request: of those that match, the lowest priority number, and the earliest of these. -/
def Governs (rules : List EastWestRule) (req : DecisionRequest) (rule : EastWestRule) : Prop :=
  ∃ i, rules[i]? = some rule ∧ rule.matchesRequest req = true ∧
    ∀ (j : ℕ) other, rules[j]? = some other → other.matchesRequest req = true →
      rule.priority < other.priority ∨ rule.priority = other.priority ∧ i ≤ j

theorem priority_strictWeak :
    StrictWeak fun r q : EastWestRule => decide (r.priority < q.priority) where
  asymm r q h := by
    have hrq : r.priority < q.priority := of_decide_eq_true h
    exact decide_eq_false hrq.not_gt
  incomp_trans r q p hqr hpq := by
    have hqr' : ¬ q.priority < r.priority := of_decide_eq_false hqr
    have hpq' : ¬ p.priority < q.priority := of_decide_eq_false hpq
    exact decide_eq_false (by omega)

theorem governs_of_matched (h : matchedEastWestRule rules req = some rule) : Governs rules req rule := by
  obtain ⟨i, hi⟩ := firstSelected_of_find? priority_strictWeak h
  refine ⟨i,hi.found,hi.selected,?_⟩
  intro j other hj hother
  have hmin : ¬ other.priority < rule.priority := of_decide_eq_false (hi.minimal j other hj hother)
  by_cases hji : j < i
  · exact .inl (of_decide_eq_true (hi.earliest j other hj hother hji))
  rcases lt_or_eq_of_le (not_lt.mp hmin) with h | h
  · exact .inl h
  · exact .inr ⟨h,not_lt.mp hji⟩

variable {g : EastWestGrant} {now : Time}

def EastWestGrant.alive (g : EastWestGrant) (now : Time) : Bool :=
  decide (now < g.expiresAt) &&
    !(decide (0 < g.idleTTLSeconds) &&
      decide ((g.idleTTLSeconds * second).bmod (2 ^ 64) < sub now g.lastUsedAt))

/-- The grant is for this user, this destination and this protocol, as far as it names them. -/
structure EastWestGrant.Covers (g : EastWestGrant) (req : DecisionRequest) : Prop where
  protocol : g.protocol = "" ∨ equalFold g.protocol (trimSpace req.serviceFamily) = true
  user : g.subjectUserID = "" ∨ g.subjectUserID = req.subjectUserID ∨ g.subjectUserID = req.userID
  destination : g.destination = "" ∨ g.destination = req.destination ∨ g.destination = req.applicationID

def EastWestGrant.IsFor (g : EastWestGrant) (id : String) : Prop := g.deviceID = "" ∨ g.deviceID = id

theorem EastWestGrant.matchesRequest_iff :
    g.matchesRequest req now = true ↔
      g.alive now = true ∧ g.Covers req ∧ g.IsFor (authoritativeDeviceIdentity req) := by
  simp only [matchesRequest,alive,IsFor,Bool.and_eq_true,Bool.or_eq_true,
    beq_iff_eq]
  constructor
  · rintro ⟨⟨⟨⟨halive, hprotocol⟩, huser⟩, hdevice⟩, hdestination⟩
    exact ⟨halive,⟨hprotocol,or_assoc.mp huser,or_assoc.mp hdestination⟩,hdevice⟩
  · rintro ⟨halive, ⟨hprotocol, huser, hdestination⟩, hdevice⟩
    exact ⟨⟨⟨⟨halive,hprotocol⟩,or_assoc.mpr huser⟩,hdevice⟩,or_assoc.mpr hdestination⟩

/-- The limit wraps at 64 bits and the idle time saturates.  A limit that wraps only gets smaller, and being even it
stays below the saturated idle time, so a grant that passes has been used within its limit. -/
theorem within_of_not_idle {limit idle : Int} (hpos : 0 < limit)
    (h : ¬ (limit * second).bmod (2 ^ 64) < max (-2 ^ 63) (min (2 ^ 63 - 1) idle)) :
    idle ≤ limit * second := by
  have hlt : (limit * second).bmod (2 ^ 64) < 2 ^ 63 := Int.bmod_lt (by decide)
  have hbmod : (limit * second).bmod (2 ^ 64) ≤ limit * second % 2 ^ 64 ∧
      (limit * second).bmod (2 ^ 64) % 2 = 0 := by
    rw [Int.bmod_def]
    unfold second
    split <;> omega
  have hmod : limit * second % 2 ^ 64 ≤ limit * second := by
    unfold second
    omega
  generalize (limit * second).bmod (2 ^ 64) = wrapped at *
  generalize limit * second % 2 ^ 64 = rest at *
  omega

theorem EastWestGrant.alive_iff :
    g.alive now = true ↔ now < g.expiresAt ∧
      (0 < g.idleTTLSeconds →
        ¬ (g.idleTTLSeconds * second).bmod (2 ^ 64) < sub now g.lastUsedAt) := by
  simp only [alive,Bool.and_eq_true,Bool.not_eq_true',Bool.and_eq_false_imp,decide_eq_true_eq,
    decide_eq_false_iff_not]

/-- A grant opens a request: it is within both of its limits, and for the user, the authoritative device, the destination
and the protocol of the request where it names them. -/
structure EastWestGrant.Opens (g : EastWestGrant) (req : DecisionRequest) (now : Time) : Prop where
  unexpired : now < g.expiresAt
  used : 0 < g.idleTTLSeconds → now - g.lastUsedAt ≤ g.idleTTLSeconds * second
  covers : g.Covers req
  device : g.IsFor (authoritativeDeviceIdentity req)

theorem EastWestGrant.opens_of_matches (h : g.matchesRequest req now = true) : g.Opens req now := by
  obtain ⟨halive, hcovers, hdevice⟩ := matchesRequest_iff.mp h
  obtain ⟨hexp, hidle⟩ := alive_iff.mp halive
  exact ⟨hexp,fun hpos => within_of_not_idle hpos (hidle hpos),hcovers,hdevice⟩

variable {cfg : EastWestConfig}

theorem eastWestAuthenticate_allow (h : (eastWestAuthenticate cfg now req rule).decision = "allow") :
    rule.requiresFederatedProof = false ∧
      ((∃ g ∈ cfg.grants, g.Opens req now) ∨
        rule.deviceAttestedAuto = true ∧ eastWestDeviceAttestationEligible req = true) := by
  unfold eastWestAuthenticate at h
  split at h
  next hgrant =>
    obtain ⟨hproof, hany⟩ := hgrant
    obtain ⟨g, hg, hmatch⟩ := List.any_eq_true.mp hany
    exact ⟨Bool.eq_false_iff.mpr hproof,.inl ⟨g,hg,opens_of_matches hmatch⟩⟩
  next =>
    split at h
    next hattested => exact ⟨Bool.eq_false_iff.mpr hattested.1,.inr hattested.2⟩
    next => simp at h

inductive Opened (cfg : EastWestConfig) (now : Time) (req : DecisionRequest) (rule : EastWestRule) : Prop
  | allowed (hmode : eastWestMode rule.mode = .allow)
      (hattested : rule.requiredWorkloadAttestation = true →
        workloadAttestationSatisfied req.workloadAttestationState = true)
  | warned (hmode : eastWestMode rule.mode = .authenticate ∨ eastWestMode rule.mode = .deny)
      (hwarn : rule.warn = true)
  | granted (hmode : eastWestMode rule.mode = .authenticate) (hproof : rule.requiresFederatedProof = false)
      (hgrant : ∃ g ∈ cfg.grants, g.Opens req now)
  | attested (hmode : eastWestMode rule.mode = .authenticate) (hproof : rule.requiresFederatedProof = false)
      (hauto : rule.deviceAttestedAuto = true) (hcert : req.transportClientCertVerified = true)
      (hdevice : trimSpace req.transportDeviceIdentity ≠ "")

/-- The plane allows a request only if the rule that governs it opens the hop, or if no rule matches it and unmatched
hops are allowed at this stage. -/
theorem lateral_access_fails_closed (cfg : EastWestConfig) (now : Time) (req : DecisionRequest)
    (h : (eastWestDecisionFor cfg now req).decision = "allow") :
    (∃ rule, Governs cfg.rules req rule ∧ Opened cfg now req rule) ∨
      (∀ rule ∈ cfg.rules, rule.matchesRequest req = false) ∧ cfg.allowUnmatched = true := by
  unfold eastWestDecisionFor at h
  cases hmatched : matchedEastWestRule cfg.rules req with
  | none =>
    rw [hmatched] at h
    refine .inr ⟨by simpa [matchedEastWestRule] using hmatched,?_⟩
    by_contra hunmatched
    simp [hunmatched] at h
  | some rule =>
    rw [hmatched] at h
    refine .inl ⟨rule,governs_of_matched hmatched,?_⟩
    simp only at h
    split at h
    next hwarn =>
      refine .warned ?_ hwarn.1
      cases hmode : eastWestMode rule.mode with
      | allow => exact absurd hmode hwarn.2
      | authenticate => exact .inl rfl
      | deny => exact .inr rfl
    next =>
      split at h
      next => simp at h
      next hattestation =>
        cases hmode : eastWestMode rule.mode with
        | allow =>
          refine .allowed hmode fun hrequired => ?_
          by_contra hmissing
          exact hattestation ⟨by simp [hmode],hrequired,hmissing⟩
        | authenticate =>
          simp only [hmode] at h
          obtain ⟨hproof, hgrant | ⟨hauto, heligible⟩⟩ := eastWestAuthenticate_allow h
          · exact .granted hmode hproof hgrant
          · simp only [eastWestDeviceAttestationEligible,Bool.and_eq_true,decide_eq_true_eq] at heligible
            exact .attested hmode hproof hauto heligible.1 heligible.2
        | deny =>
          simp only [hmode] at h
          exact absurd h (by decide)

def grantedHop : EastWestConfig :=
  { enabled := true
    rules := [{ id := "files", protocols := ["smb"], mode := "Authenticate" }]
    grants := [{ deviceID := "win-dev-1", protocol := "SMB", expiresAt := 900, lastUsedAt := 200, idleTTLSeconds := 60 }] }

def hopRequest : DecisionRequest :=
  { serviceFamily := "smb", destination := "10.0.0.5", transportDeviceIdentity := "win-dev-1" }

theorem granted_hop_is_open :
    (eastWestDecisionFor grantedHop 300 hopRequest).decision = "allow" ∧
      ((∃ rule, Governs grantedHop.rules hopRequest rule ∧ Opened grantedHop 300 hopRequest rule) ∨
        (∀ rule ∈ grantedHop.rules, rule.matchesRequest hopRequest = false) ∧ grantedHop.allowUnmatched = true) := by
  have h : (eastWestDecisionFor grantedHop 300 hopRequest).decision = "allow" := by decide +kernel
  exact ⟨h,lateral_access_fails_closed grantedHop 300 hopRequest h⟩

section Claim

variable (htransport : trimSpace req.transportDeviceIdentity ≠ "")

include htransport

theorem authoritativeDeviceIdentity_claim (claim : String) :
    authoritativeDeviceIdentity { req with deviceID := claim } = authoritativeDeviceIdentity req := by
  simp [authoritativeDeviceIdentity,htransport]

theorem EastWestRule.matchesRequest_claim (r : EastWestRule) (claim : String) :
    r.matchesRequest { req with deviceID := claim } = r.matchesRequest req := by
  have hsource : r.sourceMatches { req with deviceID := claim } = r.sourceMatches req := by
    unfold EastWestRule.sourceMatches
    rw [authoritativeDeviceIdentity_claim htransport]
  unfold EastWestRule.matchesRequest
  rw [hsource]
  rfl

theorem EastWestGrant.matchesRequest_claim (g : EastWestGrant) (now : Time) (claim : String) :
    g.matchesRequest { req with deviceID := claim } now = g.matchesRequest req now := by
  unfold matchesRequest
  rw [authoritativeDeviceIdentity_claim htransport]

theorem eastWestDecisionFor_claim (cfg : EastWestConfig) (now : Time) (claim : String) :
    eastWestDecisionFor cfg now { req with deviceID := claim } = eastWestDecisionFor cfg now req := by
  have hrules : matchedEastWestRule cfg.rules { req with deviceID := claim } = matchedEastWestRule cfg.rules req := by
    have hfun : (fun r : EastWestRule => r.matchesRequest { req with deviceID := claim }) =
        fun r => r.matchesRequest req := funext fun r => r.matchesRequest_claim htransport claim
    unfold matchedEastWestRule
    rw [hfun]
  have hgrants : (cfg.grants.any fun g => g.matchesRequest { req with deviceID := claim } now) =
      cfg.grants.any fun g => g.matchesRequest req now := by
    have hfun : (fun g : EastWestGrant => g.matchesRequest { req with deviceID := claim } now) =
        fun g => g.matchesRequest req now := funext fun g => g.matchesRequest_claim htransport now claim
    rw [hfun]
  have hauth : ∀ rule, eastWestAuthenticate cfg now { req with deviceID := claim } rule =
      eastWestAuthenticate cfg now req rule := by
    intro rule
    unfold eastWestAuthenticate
    rw [hgrants]
    rfl
  unfold eastWestDecisionFor
  rw [hrules]
  simp only [hauth]
  rfl

omit htransport in
theorem enriched_claim (e : Evaluator) (claim : String) :
    e.enriched { req with deviceID := claim } = { e.enriched req with deviceID := claim } := by
  have hctx : saasContextForRequest e.policyBundle (clearDecisionRequestSaaSContext { req with deviceID := claim }) =
      saasContextForRequest e.policyBundle (clearDecisionRequestSaaSContext req) := rfl
  unfold Evaluator.enriched decisionRequestWithSaaSContext
  rw [hctx]
  cases saasContextForRequest e.policyBundle (clearDecisionRequestSaaSContext req) <;> rfl

omit htransport in
@[simp] theorem enriched_transportDeviceIdentity (e : Evaluator) :
    (e.enriched req).transportDeviceIdentity = req.transportDeviceIdentity := by
  unfold Evaluator.enriched decisionRequestWithSaaSContext
  cases saasContextForRequest e.policyBundle (clearDecisionRequestSaaSContext req) <;> rfl

omit htransport in
theorem classifyDestinationLocality_claim (declared : InternalNetworks) (claim : String) :
    classifyDestinationLocality { req with deviceID := claim } declared =
      classifyDestinationLocality req declared := by
  have hhost : destinationHost { req with deviceID := claim } = destinationHost req := by
    simp only [destinationHost]
  unfold classifyDestinationLocality
  rw [hhost]

omit htransport in
theorem plane_claim (e : Evaluator) (claim : String) :
    e.plane (e.enriched { req with deviceID := claim }) = e.plane (e.enriched req) := by
  have hserver : isServerInitiated { e.enriched req with deviceID := claim } = isServerInitiated (e.enriched req) := rfl
  rw [enriched_claim]
  unfold Evaluator.plane
  rw [hserver,isEastWestFlow,isEastWestFlow,classifyDestinationLocality_claim]

theorem evaluate_claim (e : Evaluator) (now : Time) (claim : String) (hplane : e.plane (e.enriched req) = .eastWest) :
    e.evaluate now { req with deviceID := claim } = e.evaluate now req := by
  have hplane' := hplane
  rw [← plane_claim e claim] at hplane'
  have henriched : trimSpace (e.enriched req).transportDeviceIdentity ≠ "" := by
    rwa [enriched_transportDeviceIdentity]
  have hdecision := eastWestDecisionFor_claim henriched e.eastWest now claim
  rw [← enriched_claim] at hdecision
  unfold Evaluator.evaluate
  simp only [hplane,hplane',hdecision]
  rw [enriched_claim]
  generalize e.enriched req = enriched
  rfl

end Claim

end DsseCore.Decision
