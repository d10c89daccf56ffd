import DsseCore.Decision.Inspection
import DsseCore.Decision.SaaS

/-!
# Web gateway and DLP rules

Tenant-restriction headers, TLS bypass and DLP inspection are rule lists of the bundle.  Each is searched in order
for the first active rule that applies to the tenant of the flow and matches the request.
-/

namespace DsseCore.Decision

open Go Model

def activeSWGRule (status : String) : Bool := normalizedRiskValue status ∈ ["","active"]

def requestIsSWGHTTPS (req : DecisionRequest) : Bool :=
  let serviceFamily := normalizedRiskValue req.serviceFamily
  let protocol := normalizedRiskValue req.protocol
  serviceFamily == "https" || serviceFamily == "saas" ||
    (req.destinationPort == 443 && (protocol == "tcp" || protocol == ""))

def saasSelectorMatches (saasApplicationID provider : String) (req : DecisionRequest) : Bool :=
  (trimSpace saasApplicationID ≠ "" && trimSpace saasApplicationID == trimSpace req.saasApplicationID) ||
    (normalizedRiskValue provider ≠ "" && normalizedRiskValue provider == normalizedRiskValue req.saasProvider)

def swgTenantRestrictionRuleMatches (rule : SWGTenantRestrictionRule) (req : DecisionRequest) : Bool :=
  saasSelectorMatches rule.saasApplicationID rule.provider req

/-- A restriction rule is compared with the request's tenant twice: as written, and as every other resource. -/
def firstSWGTenantRestrictionRule (bundle : PolicyBundle) (req : DecisionRequest) (policy : Policy) :
    Option SWGTenantRestrictionRule :=
  bundle.swgTenantRestrictionRules.find? fun rule =>
    activeSWGRule rule.status &&
      !(trimSpace req.tenantID ≠ "" && rule.tenantID ≠ "" && rule.tenantID ≠ req.tenantID) &&
      tenantMatches rule.tenantID bundle.tenantID policy.tenantID req.tenantID &&
      swgTenantRestrictionRuleMatches rule req

def swgDomainRuleMatches (pattern : String) (candidates : List String) : Bool :=
  candidates.any fun c => (saasDomainPatternMatches c pattern).isSome

def swgTLSBypassRuleMatches (rule : SWGTLSBypassRule) (req : DecisionRequest) : Bool :=
  match normalizedRiskValue rule.matchType with
  | "fqdn" => swgDomainRuleMatches rule.pattern [req.fqdn,req.sni,req.destination]
  | "domain" => swgDomainRuleMatches rule.pattern [req.fqdn,req.sni,req.destination]
  | "sni" => swgDomainRuleMatches rule.pattern [req.sni]
  | "saas_application_id" =>
    trimSpace rule.saasApplicationID ≠ "" && trimSpace rule.saasApplicationID == trimSpace req.saasApplicationID
  | "category" =>
    normalizedRiskValue rule.category ≠ "" &&
      normalizedRiskValue rule.category == normalizedRiskValue req.saasCategory
  | _ => false

def firstSWGTLSBypassRule (bundle : PolicyBundle) (req : DecisionRequest) (policy : Policy) :
    Option SWGTLSBypassRule :=
  bundle.swgTLSBypassRules.find? fun rule =>
    activeSWGRule rule.status && tenantMatches rule.tenantID bundle.tenantID policy.tenantID req.tenantID &&
      swgTLSBypassRuleMatches rule req

def dlpRuleMatches (rule : DLPRule) (req : DecisionRequest) : Bool :=
  saasSelectorMatches rule.saasApplicationID rule.provider req ||
    (trimSpace rule.saasApplicationID == "" && normalizedRiskValue rule.provider == "")

def firstDLPRule (bundle : PolicyBundle) (req : DecisionRequest) (policy : Policy) : Option DLPRule :=
  bundle.dlpRules.find? fun rule =>
    activeSWGRule rule.status && tenantMatches rule.tenantID bundle.tenantID policy.tenantID req.tenantID &&
      dlpRuleMatches rule req

def dlpInspectDirective (ruleID : String) (identifiers : List String) (minCount : Int)
    (onMatch instanceScope policyID : String) : DecisionAction where
  type := "dlp_inspect"
  metadata :=
    let action := if trimSpace onMatch = "" then "observe" else trimSpace onMatch
    let scope := trimSpace instanceScope
    let md := Map.ofEntries
      [("dlp_rule_id",Value.str ruleID),("identifiers",.strs identifiers),("min_count",.int minCount),
        ("action",.str action)]
    let md := Map.insertIf md (scope ≠ "" && scope ≠ "any") "instance_scope" (.str scope)
    Map.insertIf md (trimSpace policyID ≠ "") "dlp_policy_id" (.str (trimSpace policyID))

def dlpInspectAction (rule : DLPRule) : DecisionAction :=
  dlpInspectDirective rule.id rule.identifiers rule.minCount rule.onMatch rule.instanceScope ""

def dlpInspectActionFromSpec (ruleID : String) (spec : DLPSpec) : DecisionAction :=
  dlpInspectDirective ruleID spec.identifiers spec.minCount spec.onMatch spec.instanceScope spec.policyID

structure SWGTenantEnforcementContext where
  defaultTLSDecryptRequired : Bool := false
  tenantRestrictionRule : Option SWGTenantRestrictionRule := none
  tlsBypassRule : Option SWGTLSBypassRule := none

namespace SWGTenantEnforcementContext

variable (ctx : SWGTenantEnforcementContext)

def headerInjectionSuppressed : Bool := ctx.tlsBypassRule.isSome && ctx.tenantRestrictionRule.isSome

def headerInjectionAction : Bool :=
  ctx.tenantRestrictionRule.isSome && ctx.tlsBypassRule.isNone && ctx.defaultTLSDecryptRequired

def configured : Bool :=
  ctx.defaultTLSDecryptRequired || ctx.tenantRestrictionRule.isSome || ctx.tlsBypassRule.isSome

def appendReasonCodes (reasonCodes : List String) : List String :=
  appendUniqueStrings reasonCodes
    (["swg_saas_tenant_enforcement_preflight"] ++
      (if ctx.defaultTLSDecryptRequired then ["swg_default_tls_decryption_required"] else []) ++
      (if ctx.headerInjectionAction then ["swg_tenant_restriction_header_injection_planned"] else []) ++
      (if ctx.tlsBypassRule.isSome then ["swg_tls_bypass_applied"] else []))

def headerAction (rule : SWGTenantRestrictionRule) (req : DecisionRequest) (policy : Policy) : DecisionAction where
  type := "inject_saas_tenant_restriction_header"
  target := stringPtr (valueOrDefault req.saasApplicationID req.applicationID)
  metadata :=
    let md := Map.ofEntries
      [("policy_id",Value.str policy.id),("saas_application_id",.str req.saasApplicationID),
        ("saas_provider",.str req.saasProvider),("swg_tenant_restriction_rule_id",.str rule.id),
        ("header_name",.str rule.headerName),("header_value_ref",.str rule.headerValueRef),
        ("header_value_kind",.str rule.headerValueKind),("header_value_material_in_decision",.bool false),
        ("tls_decryption_mode",.str "default_decrypt"),("runtime_tls_decryption_observed",.bool false),
        ("runtime_header_injection_observed",.bool false)]
    match rule.metadata["restriction_context_ref"]? with
    | some (.str ref) =>
      Map.insertIf md (rule.provider == "microsoft_365" && ref ≠ "") "restriction_context_ref" (.str ref)
    | _ => md

def bypassAction (rule : SWGTLSBypassRule) (req : DecisionRequest) (policy : Policy) : DecisionAction where
  type := "emit_audit_event"
  metadata := Map.ofEntries
    [("audit_event_type",.str "swg_tls_bypass_preflight"),("policy_id",.str policy.id),
      ("saas_application_id",.str req.saasApplicationID),("swg_tls_bypass_rule_id",.str rule.id),
      ("swg_tls_bypass_match_type",.str rule.matchType),("swg_tls_bypass_reason",.str rule.reason),
      ("tenant_header_injection_suppressed",.bool ctx.headerInjectionSuppressed),
      ("runtime_tls_decryption_observed",.bool false),("runtime_header_injection_observed",.bool false),
      ("header_value_material_in_decision",.bool false),("network_extension_runtime_used",.bool false)]

def appendActions (req : DecisionRequest) (policy : Policy) (actions : List DecisionAction) :
    List DecisionAction :=
  actions ++
    (if ctx.headerInjectionAction then
      (ctx.tenantRestrictionRule.map fun rule => headerAction rule req policy).toList else []) ++
    (ctx.tlsBypassRule.map fun rule => ctx.bypassAction rule req policy).toList

end SWGTenantEnforcementContext

/-- The empty context, which is not configured, stands for requests the gateway does not govern. -/
def swgTenantEnforcementContextFor (bundle : PolicyBundle) (policy : Policy) (req : DecisionRequest)
    (inspectionCtx : Option TLSInspectionReadinessContext) : SWGTenantEnforcementContext :=
  if ¬ requestIsSWGHTTPS req then {}
  else if req.saasApplicationID = "" ∧ req.saasProvider = "" ∧ req.saasCategory = "" then {}
  else
    { defaultTLSDecryptRequired := (inspectionCtx.map (·.profile.tlsInterceptionEnabled)).getD false
      tenantRestrictionRule := firstSWGTenantRestrictionRule bundle req policy
      tlsBypassRule := firstSWGTLSBypassRule bundle req policy }

end DsseCore.Decision
