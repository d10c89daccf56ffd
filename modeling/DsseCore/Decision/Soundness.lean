import DsseCore.Decision.Evaluate

/-!
# What an allow rests on

The gates of a matched policy, read backwards: which evidence stands behind an allow of the north-bound plane, and
when a request outside the tool boundary of its policy is in fact denied.
-/

namespace DsseCore.Decision

open Go Model

variable {e : Evaluator} {now : Time} {req : DecisionRequest} {policy : Policy} {names : List String}
variable {actorType : String} {out : Outcome}

theorem policyDecision_eq_trim {d : String} (hd : d ≠ "deny") :
    policyDecision policy = d ↔ trimSpace policy.action.decision = d ∧ d ≠ "" := by
  unfold policyDecision
  split_ifs with h
  · rw [h]
    constructor
    · exact fun hd' => absurd hd'.symm hd
    · rintro ⟨rfl, hne⟩
      exact absurd rfl hne
  · constructor
    · rintro rfl
      exact ⟨rfl,h⟩
    · exact And.left

theorem stepUpDecision_allow_iff :
    stepUpDecision now policy req = "allow" ↔
      policyDecision policy = "allow" ∧ attestationMissing policy req = false ∧
        authenticationFresh now policy req = true := by
  unfold stepUpDecision freshnessGate attestationGate
  cases attestationMissing policy req with
  | true => simp
  | false =>
    simp only [Bool.false_eq_true,if_false]
    split_ifs with h
    · refine iff_of_false (by decide) ?_
      rintro ⟨_, _, hfresh⟩
      exact h.2 hfresh
    constructor
    · intro hallow
      exact ⟨hallow,trivial,by simpa [hallow] using h⟩
    · exact And.left

theorem stepUpDecision_deny_iff : stepUpDecision now policy req = "deny" ↔ policyDecision policy = "deny" := by
  unfold stepUpDecision freshnessGate attestationGate
  cases hmissing : attestationMissing policy req with
  | true =>
    have hallow : policyDecision policy ∈ ["allow","require_reauthentication"] := by
      simp only [attestationMissing,Bool.and_eq_true,decide_eq_true_eq] at hmissing
      exact hmissing.1.1
    have hdeny : policyDecision policy ≠ "deny" := by
      rintro hdeny
      rw [hdeny] at hallow
      exact absurd hallow (by decide)
    simp [hdeny]
  | false =>
    simp only [Bool.false_eq_true,if_false]
    split_ifs with h
    · simp [h.1]
    · rfl

theorem toolGate_deny_iff :
    (toolGate policy req out).decision = "deny" ↔
      out.decision = "deny" ∨ (out.decision = "allow" ∧ (toolActionBoundaryViolation policy req).isSome = true) := by
  rcases toolGate_cases policy req out with ⟨h, hnone⟩ | ⟨code, hallow, hcode, h⟩
  · rw [h]
    constructor
    · exact .inl
    rintro (hdeny | ⟨hallow, hsome⟩)
    · exact hdeny
    · simp [hnone hallow] at hsome
  · simp [h,hallow,hcode]

theorem approvalGate_deny_iff : (approvalGate policy req out).decision = "deny" ↔ out.decision = "deny" := by
  rcases approvalGate_cases policy req out with ⟨h, -⟩ | ⟨hallow, h⟩
  · rw [h]
  · simp [h,hallow]

theorem toolGate_allow_iff :
    (toolGate policy req out).decision = "allow" ↔
      out.decision = "allow" ∧ toolActionBoundaryViolation policy req = none := by
  rcases toolGate_cases policy req out with ⟨h, hnone⟩ | ⟨code, hallow, hcode, h⟩
  · rw [h]
    exact ⟨fun hallow => ⟨hallow,hnone hallow⟩,And.left⟩
  · simp [h,hcode]

theorem approvalGate_allow (h : (approvalGate policy req out).decision = "allow") :
    out.decision = "allow" ∧
      (policy.requiredHumanApproval = true → humanApprovalRequirementReasonCodes req policy = []) := by
  rcases approvalGate_cases policy req out with ⟨hout, hnone⟩ | ⟨_, hout⟩
  · rw [hout] at h
    exact ⟨h,hnone h⟩
  · simp [hout] at h

theorem matchedOutcome_decision (bundle : PolicyBundle) :
    (matchedOutcome now bundle policy req actorType).1.decision =
      (gatedOutcome now policy req actorType).decision := by
  have hdlp : ∀ swgCtx out, (dlpOutcome bundle policy req swgCtx out).decision = out.decision := by
    intro swgCtx out
    unfold dlpOutcome
    split_ifs
    · rfl
    cases policy.dlp with
    | some spec => rfl
    | none => cases firstDLPRule bundle req policy <;> rfl
  have hswg : ∀ swgCtx out, (swgOutcome policy req swgCtx out).decision = out.decision := by
    intro swgCtx out
    unfold swgOutcome
    split_ifs <;> rfl
  simp only [matchedOutcome,hdlp,hswg]
  cases tlsInspectionReadinessContextFor bundle policy req <;> rfl

theorem evaluate_decision_of_matched (hplane : e.plane (e.enriched req) = .northBound)
    (hm : e.matchedPolicy now (e.enriched req) = some (policy,names)) :
    (e.evaluate now req).decision =
      (gatedOutcome now policy (e.enriched req) (effectiveActorType (e.enriched req))).decision := by
  rw [← matchedOutcome_decision e.policyBundle]
  simp only [Evaluator.evaluate,hplane,hm]

/-- A request outside the tool boundary of a permissive policy is denied exactly when no earlier gate held it, or
when the policy is a badly configured break-glass policy. -/
theorem evaluate_deny_iff_of_toolViolation (hplane : e.plane (e.enriched req) = .northBound)
    (hm : e.matchedPolicy now (e.enriched req) = some (policy,names))
    (haction : trimSpace policy.action.decision ∈ ["allow","require_reauthentication"])
    (hviolation : (toolActionBoundaryViolation policy (e.enriched req)).isSome = true) :
    (e.evaluate now req).decision = "deny" ↔
      (trimSpace policy.action.decision = "allow" ∧
          (policy.requiredWorkloadAttestation = true →
            workloadAttestationSatisfied (e.enriched req).workloadAttestationState = true) ∧
          authenticationFresh now policy (e.enriched req) = true) ∨
        ∃ ctx, breakGlassPolicyContextFor now policy (e.enriched req) = some ctx ∧
          ctx.requirementsSatisfied = false := by
  have hdecision : policyDecision policy = trimSpace policy.action.decision := by
    unfold policyDecision
    rw [if_neg]
    rintro hempty
    rw [hempty] at haction
    exact absurd haction (by decide)
  have hdeny : trimSpace policy.action.decision ≠ "deny" := by
    rintro hdeny
    rw [hdeny] at haction
    exact absurd haction (by decide)
  have hmissing : attestationMissing policy (e.enriched req) = false ↔
      (policy.requiredWorkloadAttestation = true →
        workloadAttestationSatisfied (e.enriched req).workloadAttestationState = true) := by
    rw [attestationMissing,hdecision]
    simp only [haction]
    cases policy.requiredWorkloadAttestation <;> simp
  rw [evaluate_decision_of_matched hplane hm,gatedOutcome,applyBreakGlassPolicyGuard_deny,approvalGate_deny_iff,
    toolGate_deny_iff,policyOutcome_decision,stepUpDecision_deny_iff,stepUpDecision_allow_iff,hdecision,hmissing]
  simp only [hdeny,false_or,hviolation,and_true]

/-- A policy that allows one tool and asks for a workload proof. -/
def toolPolicy : Policy :=
  { id := "tools", status := "active", action := ⟨"allow"⟩, requiredWorkloadAttestation := true
    allowedToolIDs := ["search"] }

def toolEvaluator : Evaluator := { policies := [toolPolicy] }

def otherToolRequest : DecisionRequest := { tenantID := "a", toolID := "shell" }

theorem evaluate_deny_iff_of_toolViolation_otherTool :
    toolEvaluator.plane (toolEvaluator.enriched otherToolRequest) = .northBound ∧
      ((toolEvaluator.evaluate 0 otherToolRequest).decision = "deny" ↔
        (trimSpace toolPolicy.action.decision = "allow" ∧
            (toolPolicy.requiredWorkloadAttestation = true →
              workloadAttestationSatisfied (toolEvaluator.enriched otherToolRequest).workloadAttestationState = true) ∧
            authenticationFresh 0 toolPolicy (toolEvaluator.enriched otherToolRequest) = true) ∨
          ∃ ctx, breakGlassPolicyContextFor 0 toolPolicy (toolEvaluator.enriched otherToolRequest) = some ctx ∧
            ctx.requirementsSatisfied = false) :=
  ⟨by decide +kernel,
    evaluate_deny_iff_of_toolViolation (by decide +kernel)
      (show toolEvaluator.matchedPolicy 0 (toolEvaluator.enriched otherToolRequest) = some (toolPolicy,[]) from rfl)
      (by decide) (by decide +kernel)⟩

/-- The missing workload proof is asked for first, and the forbidden tool is never denied. -/
theorem evaluate_holds_forbidden_tool :
    toolEvaluator.plane (toolEvaluator.enriched otherToolRequest) = .northBound ∧
      toolEvaluator.matchedPolicy 0 (toolEvaluator.enriched otherToolRequest) = some (toolPolicy,[]) ∧
      trimSpace toolPolicy.action.decision = "allow" ∧
      toolActionBoundaryViolation toolPolicy (toolEvaluator.enriched otherToolRequest) =
        some "tool_id_not_allowed" ∧
      (toolEvaluator.evaluate 0 otherToolRequest).decision = "require_workload_attestation" :=
  ⟨by decide +kernel,rfl,by decide,by decide +kernel,by decide +kernel⟩

/-- Everything that stands behind an allow of the north-bound plane. -/
structure AllowEvidence (e : Evaluator) (now : Time) (req : DecisionRequest) (policy : Policy) : Prop where
  configured : policy ∈ e.policies
  active : policy.status = "active"
  inScope : trimSpace policy.tenantID = "" ∨ trimSpace policy.tenantID = trimSpace req.tenantID ∨
    trimSpace req.tenantID = ""
  conditions : ∀ key expected, policy.conditions[key]? = some expected →
    matchCondition now req (effectiveActorType req) key expected = true
  first : (orderedPolicies e.policies).find? (policyMatches now req (effectiveActorType req)) = some policy
  minimal : ∀ q ∈ e.policies, policyMatches now req (effectiveActorType req) q = true →
    ¬ policyKey q < policyKey policy
  allows : trimSpace policy.action.decision = "allow"
  attested : policy.requiredWorkloadAttestation = true →
    workloadAttestationSatisfied req.workloadAttestationState = true
  recent : 0 < authenticationMaxAge policy →
    ∃ age, breakGlassAuthAgeSeconds now req.authTime = some age ∧ age ≤ authenticationMaxAge policy
  withinTools : toolActionBoundaryViolation policy req = none
  approved : policy.requiredHumanApproval = true → humanApprovalRequirementReasonCodes req policy = []
  breakGlass : breakGlassPolicyConfigured policy = true →
    ∃ ctx, breakGlassPolicyContextFor now policy req = some ctx ∧ ctx.requirementsSatisfied = true ∧
      ctx.runtimeSatisfied = true

theorem authenticationFresh_iff :
    authenticationFresh now policy req = true ↔
      (0 < authenticationMaxAge policy →
        ∃ age, breakGlassAuthAgeSeconds now req.authTime = some age ∧ age ≤ authenticationMaxAge policy) := by
  unfold authenticationFresh
  rw [Bool.or_eq_true]
  cases breakGlassAuthAgeSeconds now req.authTime with
  | none => simp
  | some age =>
    simp only [decide_eq_true_eq,Option.some.injEq,exists_eq_left']
    omega

/-- An allow of the north-bound plane rests on a policy with all the evidence it asks for. -/
theorem evaluate_allow_evidence (hplane : e.plane (e.enriched req) = .northBound)
    (hallow : (e.evaluate now req).decision = "allow") :
    ∃ policy, AllowEvidence e now (e.enriched req) policy := by
  cases hm : e.matchedPolicy now (e.enriched req) with
  | none =>
    simp only [Evaluator.evaluate,hplane,hm] at hallow
    exact absurd hallow (by decide)
  | some matched =>
    obtain ⟨policy, names⟩ := matched
    rw [evaluate_decision_of_matched hplane hm] at hallow
    obtain ⟨happroval, hguard⟩ := applyBreakGlassPolicyGuard_allow hallow
    obtain ⟨htool, happroved⟩ := approvalGate_allow happroval
    obtain ⟨hstep, hwithin⟩ := toolGate_allow_iff.mp htool
    rw [policyOutcome_decision] at hstep
    obtain ⟨hdecision, hattested, hfresh⟩ := stepUpDecision_allow_iff.mp hstep
    obtain ⟨hmem, hmatches, hmin⟩ := firstMatchedPolicy_spec hm
    obtain ⟨hactive, hscope, hconditions⟩ := policyMatches_iff.mp hmatches
    refine ⟨policy,
      { configured := hmem
        active := hactive
        inScope := ?_
        conditions := conditionsMatch_iff.mp hconditions
        first := ?_
        minimal := ?_
        allows := ((policyDecision_eq_trim (by decide)).mp hdecision).1
        attested := ?_
        recent := authenticationFresh_iff.mp hfresh
        withinTools := hwithin
        approved := happroved
        breakGlass := ?_ }⟩
    · simp only [policyTenantAppliesTo,Bool.or_eq_true,beq_iff_eq] at hscope
      rcases hscope with (hglobal | hnone) | hown
      · exact .inl hglobal
      · exact .inr (.inr hnone)
      · exact .inr (.inl hown)
    · have hfirst := hm
      rw [Evaluator.matchedPolicy,firstMatchedPolicy_eq,Option.map_eq_some_iff] at hfirst
      obtain ⟨p, hp, hpair⟩ := hfirst
      rw [hp,(Prod.mk.inj hpair).1]
    · intro q hq hqm
      rw [← policyLess_iff,hmin q hq hqm]
      exact Bool.false_ne_true
    · intro hrequired
      simpa [attestationMissing,hdecision,hrequired] using hattested
    intro hconfigured
    have hctx : (breakGlassPolicyContextFor now policy (e.enriched req)).isSome = true := by
      simp [breakGlassPolicyContextFor,hconfigured]
    obtain ⟨ctx, hctx⟩ := Option.isSome_iff_exists.mp hctx
    exact ⟨ctx,hctx,hguard ctx hctx⟩

def tenantAllowPolicy : Policy := { id := "open", tenantID := "a", status := "active", action := ⟨"allow"⟩ }

def tenantAllowEvaluator : Evaluator := { policies := [tenantAllowPolicy] }

theorem evaluate_allow_evidence_tenant :
    tenantAllowEvaluator.plane (tenantAllowEvaluator.enriched { tenantID := "a" }) = .northBound ∧
      (tenantAllowEvaluator.evaluate 0 { tenantID := "a" }).decision = "allow" ∧
      ∃ policy, AllowEvidence tenantAllowEvaluator 0 (tenantAllowEvaluator.enriched { tenantID := "a" }) policy :=
  ⟨by decide +kernel,by decide +kernel,evaluate_allow_evidence (by decide +kernel) (by decide +kernel)⟩

/-- A request without a tenant is allowed by a tenant's policy: there is no global policy and none of its own. -/
theorem evaluate_allow_without_tenant :
    tenantAllowEvaluator.plane (tenantAllowEvaluator.enriched {}) = .northBound ∧
      (tenantAllowEvaluator.evaluate 0 {}).decision = "allow" ∧
      ∀ policy ∈ tenantAllowEvaluator.policies,
        ¬ (trimSpace policy.tenantID = "" ∨ trimSpace policy.tenantID = trimSpace ({} : DecisionRequest).tenantID) := by
  refine ⟨by decide +kernel,by decide +kernel,?_⟩
  intro policy hpolicy
  obtain rfl := List.mem_singleton.mp hpolicy
  decide

end DsseCore.Decision
