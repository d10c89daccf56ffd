import DsseCore.Decision.EastWest
import DsseCore.Decision.Match
import DsseCore.Decision.SWG
import DsseCore.Decision.ServerInitiated

/-!
# The evaluator

`Evaluate` sends a request to one of three planes: server-initiated, east-west, or the policies of the north-bound
plane.  On the north-bound plane a sequence of gates rewrites the decision of the matched policy.
-/

namespace DsseCore.Decision

open Go Model

structure Evaluator where
  policies : List Policy := []
  policyBundle : PolicyBundle := {}
  eastWest : EastWestConfig := {}
  serverInitiatedEnabled : Bool := false
  legacyExceptions : List LegacyException := []

/-- A matched policy without a decision is a misconfiguration and denies. -/
def policyDecision (policy : Policy) : String :=
  if trimSpace policy.action.decision = "" then "deny" else trimSpace policy.action.decision

def attestationMissing (policy : Policy) (req : DecisionRequest) : Bool :=
  policyDecision policy ∈ ["allow","require_reauthentication"] && policy.requiredWorkloadAttestation &&
    !workloadAttestationSatisfied req.workloadAttestationState

def attestationGate (policy : Policy) (req : DecisionRequest) : String :=
  if attestationMissing policy req then "require_workload_attestation" else policyDecision policy

def authenticationMaxAge (policy : Policy) : Int := intMetadata policy.metadata "authentication_max_age_seconds" 0

def authenticationFresh (now : Time) (policy : Policy) (req : DecisionRequest) : Bool :=
  decide (authenticationMaxAge policy ≤ 0) ||
    match breakGlassAuthAgeSeconds now req.authTime with
    | some age => decide (age ≤ authenticationMaxAge policy)
    | none => false

def freshnessGate (now : Time) (policy : Policy) (req : DecisionRequest) (decision : String) : String :=
  if decision = "allow" ∧ ¬ authenticationFresh now policy req then "require_reauthentication" else decision

def stepUpDecision (now : Time) (policy : Policy) (req : DecisionRequest) : String :=
  freshnessGate now policy req (attestationGate policy req)

def policyOutcome (now : Time) (policy : Policy) (req : DecisionRequest) (actorType : String) : Outcome :=
  let decision := stepUpDecision now policy req
  ⟨decision,reasonCodesForPolicyDecision decision actorType,actionsForPolicyDecision decision req policy⟩

def toolGate (policy : Policy) (req : DecisionRequest) (out : Outcome) : Outcome :=
  if out.decision = "allow" then
    match toolActionBoundaryViolation policy req with
    | some code => ⟨"deny",["policy_matched","tool_action_out_of_boundary",code],[]⟩
    | none => out
  else out

def approvalGate (policy : Policy) (req : DecisionRequest) (out : Outcome) : Outcome :=
  if out.decision = "allow" ∧ policy.requiredHumanApproval then
    let missing := humanApprovalRequirementReasonCodes req policy
    if missing = [] then out
    else ⟨"require_human_approval",["policy_matched","human_approval_required"] ++ missing,
      [humanApprovalRequestAction req policy]⟩
  else out

def gatedOutcome (now : Time) (policy : Policy) (req : DecisionRequest) (actorType : String) : Outcome :=
  applyBreakGlassPolicyGuard now req policy
    (approvalGate policy req (toolGate policy req (policyOutcome now policy req actorType)))

structure InspectionFields where
  bypass : Bool := false
  profileID : Option String := none
  mode : Option String := none
  routeCategory : Option String := none
  executionScope : Option String := none

def inspectionFields (policy : Policy) (inspectionCtx : Option TLSInspectionReadinessContext)
    (swgCtx : SWGTenantEnforcementContext) : InspectionFields :=
  let fields : InspectionFields := match inspectionCtx with
    | some ctx =>
      { profileID := stringPtr ctx.profile.id
        mode := stringPtr ctx.profile.inspectionMode
        routeCategory := stringPtr ctx.routing.1
        executionScope := stringPtr ctx.routing.2 }
    | none => { profileID := stringPtr (namedInspectionProfile policy) }
  if swgCtx.tlsBypassRule.isSome then
    { fields with
      bypass := true
      routeCategory := some "passthrough"
      executionScope := some "not_executed_metadata_only" }
  else fields

def inspectionOutcome (policy : Policy) (req : DecisionRequest)
    (inspectionCtx : Option TLSInspectionReadinessContext) (out : Outcome) : Outcome :=
  match inspectionCtx with
  | some ctx =>
    { out with
      reasonCodes := ctx.appendReasonCodes out.reasonCodes
      actions := ctx.appendActions req policy out.actions }
  | none => out

def swgOutcome (policy : Policy) (req : DecisionRequest) (swgCtx : SWGTenantEnforcementContext) (out : Outcome) :
    Outcome :=
  if swgCtx.configured then
    { out with
      reasonCodes := swgCtx.appendReasonCodes out.reasonCodes
      actions := swgCtx.appendActions req policy out.actions }
  else out

/-- A bypassed flow has no plaintext to inspect; otherwise the policy's own options come before the rules. -/
def dlpOutcome (bundle : PolicyBundle) (policy : Policy) (req : DecisionRequest)
    (swgCtx : SWGTenantEnforcementContext) (out : Outcome) : Outcome :=
  if swgCtx.tlsBypassRule.isSome then out
  else match policy.dlp with
    | some spec => { out with actions := out.actions ++ [dlpInspectActionFromSpec policy.id spec] }
    | none =>
      match firstDLPRule bundle req policy with
      | some rule => { out with actions := out.actions ++ [dlpInspectAction rule] }
      | none => out

def matchedOutcome (now : Time) (bundle : PolicyBundle) (policy : Policy) (req : DecisionRequest)
    (actorType : String) : Outcome × InspectionFields :=
  let inspectionCtx := tlsInspectionReadinessContextFor bundle policy req
  let swgCtx := swgTenantEnforcementContextFor bundle policy req inspectionCtx
  (dlpOutcome bundle policy req swgCtx
    (swgOutcome policy req swgCtx
      (inspectionOutcome policy req inspectionCtx (gatedOutcome now policy req actorType))),
    inspectionFields policy inspectionCtx swgCtx)

inductive Plane where
  | serverInitiated
  | eastWest
  | northBound
  deriving DecidableEq

def Evaluator.plane (e : Evaluator) (req : DecisionRequest) : Plane :=
  if e.serverInitiatedEnabled && isServerInitiated req then .serverInitiated
  else if e.eastWest.enabled && isEastWestFlow req e.eastWest.internalNetworks then .eastWest
  else .northBound

def effectiveActorType (req : DecisionRequest) : String := valueOrDefault req.actorType "human"

def Evaluator.enriched (e : Evaluator) (req : DecisionRequest) : DecisionRequest :=
  decisionRequestWithSaaSContext e.policyBundle req

def Evaluator.matchedPolicy (e : Evaluator) (now : Time) (req : DecisionRequest) : Option (Policy × List String) :=
  firstMatchedPolicy now e.policies req (effectiveActorType req)

def Evaluator.evaluate (e : Evaluator) (now : Time) (request : DecisionRequest) : AccessDecision :=
  let req := e.enriched request
  let base : AccessDecision :=
    { tenantID := valueOrDefault req.tenantID (firstPolicyTenantID e.policies)
      actorType := effectiveActorType req
      policyID := ""
      policyBundleID := e.policyBundle.id
      policyBundleVersion := e.policyBundle.version
      matchedConditions := []
      tokenBindingState := stringPtr req.tokenBindingState
      workloadAttestationState := stringPtr req.workloadAttestationState
      decision := "deny"
      reasonCodes := ["no_policy_match"]
      actions := []
      bypass := false
      inspectionProfileID := none
      inspectionMode := none
      inspectionRouteCategory := none
      inspectionExecutionScope := none }
  match e.plane req with
  | .serverInitiated =>
    let out := serverInitiatedDecisionFor now e.legacyExceptions req
    { base with decision := out.decision, reasonCodes := out.reasonCodes, policyID := "server_initiated_policy" }
  | .eastWest =>
    let out := eastWestDecisionFor e.eastWest now req
    { base with
      decision := out.decision, reasonCodes := out.reasonCodes, actions := out.actions
      policyID := "east_west_policy" }
  | .northBound =>
    match e.matchedPolicy now req with
    | none => base
    | some (policy,names) =>
      let out := (matchedOutcome now e.policyBundle policy req (effectiveActorType req)).1
      let fields := (matchedOutcome now e.policyBundle policy req (effectiveActorType req)).2
      { base with
        policyID := policy.id
        matchedConditions := names
        tokenBindingState := stringPtr (if req.tokenBindingState = "" ∧ policy.requiredTokenBinding then "required"
          else req.tokenBindingState)
        workloadAttestationState := stringPtr (if attestationMissing policy req then "required"
          else req.workloadAttestationState)
        decision := out.decision
        reasonCodes := out.reasonCodes
        actions := out.actions
        bypass := fields.bypass
        inspectionProfileID := fields.profileID
        inspectionMode := fields.mode
        inspectionRouteCategory := fields.routeCategory
        inspectionExecutionScope := fields.executionScope }

variable {policy : Policy} {req : DecisionRequest} {out : Outcome}

@[simp] theorem policyOutcome_decision (now : Time) (actorType : String) :
    (policyOutcome now policy req actorType).decision = stepUpDecision now policy req := by
  simp only [policyOutcome]

theorem toolGate_cases (policy : Policy) (req : DecisionRequest) (out : Outcome) :
    (toolGate policy req out = out ∧ (out.decision = "allow" → toolActionBoundaryViolation policy req = none)) ∨
      ∃ code, out.decision = "allow" ∧ toolActionBoundaryViolation policy req = some code ∧
        toolGate policy req out = ⟨"deny",["policy_matched","tool_action_out_of_boundary",code],[]⟩ := by
  by_cases hallow : out.decision = "allow"
  · cases hcode : toolActionBoundaryViolation policy req with
    | none => exact .inl ⟨by simp only [toolGate,hallow,if_true,hcode],fun _ => rfl⟩
    | some code => exact .inr ⟨code,hallow,rfl,by simp only [toolGate,hallow,if_true,hcode]⟩
  · exact .inl ⟨by simp only [toolGate,hallow,if_false],fun h => absurd h hallow⟩

theorem approvalGate_cases (policy : Policy) (req : DecisionRequest) (out : Outcome) :
    (approvalGate policy req out = out ∧ (out.decision = "allow" → policy.requiredHumanApproval = true →
        humanApprovalRequirementReasonCodes req policy = [])) ∨
      (out.decision = "allow" ∧
        approvalGate policy req out = ⟨"require_human_approval",
          ["policy_matched","human_approval_required"] ++ humanApprovalRequirementReasonCodes req policy,
          [humanApprovalRequestAction req policy]⟩) := by
  by_cases hallow : out.decision = "allow" ∧ policy.requiredHumanApproval = true
  · by_cases hmissing : humanApprovalRequirementReasonCodes req policy = []
    · exact .inl ⟨by simp only [approvalGate,hallow,and_self,if_true,hmissing],fun _ _ => hmissing⟩
    · exact .inr ⟨hallow.1,by simp only [approvalGate,hallow,and_self,if_true,hmissing,if_false]⟩
  · refine .inl ⟨by simp only [approvalGate,hallow,if_false],fun h h' => absurd ⟨h,h'⟩ hallow⟩

end DsseCore.Decision
