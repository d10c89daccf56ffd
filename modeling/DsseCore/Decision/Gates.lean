import DsseCore.Decision.Conditions

/-!
# Gates on a matched policy

The evidence a matched policy can ask for (workload attestation, tool boundary, human approval), with the reason
codes and actions each outcome carries.
-/

namespace DsseCore.Decision

open Go Model

def toolBoundaryListContains (list : List String) (value : String) : Bool :=
  let value := trimSpace value
  if value = "" then false else list.any fun item => equalFold (trimSpace item) value

/-- The code of the violated side of the declared tool boundary; an empty list is unconstrained. -/
def toolActionBoundaryViolation (policy : Policy) (req : DecisionRequest) : Option String :=
  if policy.allowedToolIDs ≠ [] ∧ ¬ toolBoundaryListContains policy.allowedToolIDs req.toolID then
    some "tool_id_not_allowed"
  else if policy.allowedToolActions ≠ [] ∧ ¬ toolBoundaryListContains policy.allowedToolActions req.toolActionType then
    some "tool_action_not_allowed"
  else none

def workloadAttestationSatisfied (state : String) : Bool :=
  toLower (trimSpace state) ∈ ["verified","valid"]

def delegatedActor (actorType : String) : Bool := actorType ∈ ["delegated_agent","nhi"]

def reasonCodesForPolicyDecision (decisionValue actorType : String) : List String :=
  match decisionValue with
  | "deny" => ["policy_matched","application_denied"]
  | "require_reauthentication" => ["policy_matched","reauthentication_required"]
  | "require_workload_attestation" => ["policy_matched","workload_attestation_required"]
  | _ =>
    if delegatedActor actorType then
      ["policy_matched","delegated_grant_valid","scope_allowed","approval_valid","tool_allowed"]
    else ["policy_matched","application_allowed"]

/-- A step-up requirement copied from the policy; a comma list of methods is split. -/
def stepUpRequirement (metadata : Map Value) (md : Map Value) (key : String) : Map Value :=
  match metadata[key]? with
  | none => md
  | some (.str s) =>
    if key = "required_amr" ∧ trimSpace s ≠ "" then md.insert key (.strs (splitCommaList s))
    else md.insert key (.str s)
  | some v => md.insert key v

def reauthenticationMetadata (req : DecisionRequest) (policy : Policy) : Map Value :=
  let idp := stringMetadataValue policy.metadata "required_idp_id"
  let acr := stringMetadataValue policy.metadata "min_acr"
  let md := Map.ofEntries [("service_family",Value.str req.serviceFamily)]
  let md := Map.insertIf md (idp ≠ "") "required_idp_id" (.str idp)
  let md := Map.insertIf md (acr ≠ "") "min_acr" (.str acr)
  ["required_amr","max_age_seconds","grant_ttl_seconds"].foldl (stepUpRequirement policy.metadata) md

def workloadAttestationAction (req : DecisionRequest) (policyID : String) : DecisionAction where
  type := "request_workload_attestation"
  target := stringPtr (if req.actorNHIID = "" then req.agentTaskSessionID else req.actorNHIID)
  metadata := Map.ofEntries
    [("actor_nhi_id",.str req.actorNHIID),("agent_task_session_id",.str req.agentTaskSessionID),
      ("application_id",.str req.applicationID),("required_by_policy_id",.str policyID),
      ("attestation_acceptance",.strs ["verified","valid"])]

def actionsForPolicyDecision (decisionValue : String) (req : DecisionRequest) (policy : Policy) :
    List DecisionAction :=
  match decisionValue with
  | "require_reauthentication" =>
    [{ type := "prompt_reauthentication"
       target := stringPtr req.applicationID
       ttlSeconds := intPtr (intMetadata policy.metadata "reauth_interval_seconds" 300)
       metadata := reauthenticationMetadata req policy }]
  | "require_workload_attestation" => [workloadAttestationAction req policy.id]
  | _ => []

def humanApprovalRequestAction (req : DecisionRequest) (policy : Policy) : DecisionAction where
  type := "request_human_approval"
  target := stringPtr req.applicationID
  ttlSeconds := intPtr (intMetadata policy.metadata "human_approval_ttl_seconds" 300)
  metadata :=
    let present (md : Map Value) (e : String × String) := Map.insertIf md (e.2 ≠ "") e.1 (.str e.2)
    [("actor_nhi_id",req.actorNHIID),("delegated_access_grant_id",req.delegatedAccessGrantID),
      ("agent_task_session_id",req.agentTaskSessionID),("tool_id",req.toolID),
      ("tool_action_type",req.toolActionType),("data_classification",req.dataClassification)].foldl present
      (Map.ofEntries
        [("required_by_policy_id",.str policy.id),("application_id",.str req.applicationID),
          ("human_approval_required",.bool true),("human_approval_scope",.str "metadata_only"),
          ("tool_payload_recorded",.bool false),("tool_secret_recorded",.bool false),
          ("tool_credentials_recorded",.bool false)])

/-- The three states of an approval event are checked against their own accepted values. -/
def approvalStateSatisfied (accepted : List String) (state : String) : Bool :=
  toLower (trimSpace state) ∈ accepted

def humanApprovalEventTrustSatisfied : String → Bool := approvalStateSatisfied ["trusted","valid"]

def humanApprovalEventBindingSatisfied : String → Bool := approvalStateSatisfied ["bound","matched","valid"]

def humanApprovalEventFreshnessSatisfied : String → Bool := approvalStateSatisfied ["fresh","valid"]

def humanApprovalEventTrustBindingFreshnessRequired (policy : Policy) : Bool :=
  boolMetadataValue policy.metadata "human_approval_event_require_trusted_binding_freshness" ||
    equalFold (stringMetadataValue policy.metadata "human_approval_event_contract") "trust_binding_freshness"

def humanApprovalRequirementReasonCodes (req : DecisionRequest) (policy : Policy) : List String :=
  if trimSpace req.humanApprovalEventID = "" then ["approval_absent"]
  else if ¬ humanApprovalEventTrustBindingFreshnessRequired policy then []
  else
    (if humanApprovalEventTrustSatisfied req.humanApprovalEventTrustState then [] else ["approval_untrusted"]) ++
    (if humanApprovalEventBindingSatisfied req.humanApprovalEventBindingState then [] else ["approval_unbound"]) ++
    (if humanApprovalEventFreshnessSatisfied req.humanApprovalEventFreshnessState then []
      else ["approval_not_fresh"])

end DsseCore.Decision
