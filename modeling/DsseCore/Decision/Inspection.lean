import DsseCore.Decision.BreakGlass

/-!
# TLS inspection readiness

A matched policy may name an inspection profile.  The profile is looked up by ID in the bundle, and only then
compared with the tenant of the flow.
-/

namespace DsseCore.Decision

open Go Model

/-- The three lookups by ID: the first record with that ID, whoever owns it. -/
def resourceByID {α : Type} (idOf : α → String) (records : List α) (id : String) : Option α :=
  records.find? fun r => trimSpace (idOf r) == trimSpace id

def inspectionProfileByID (bundle : PolicyBundle) (id : String) : Option InspectionProfile :=
  resourceByID (·.id) bundle.inspectionProfiles id

def trustProfileByID (bundle : PolicyBundle) (id : String) : Option TrustProfile :=
  resourceByID (·.id) bundle.trustProfiles id

def tenantRootCAByID (bundle : PolicyBundle) (id : String) : Option TenantRootCA :=
  resourceByID (·.id) bundle.tenantRootCAs id

structure TLSInspectionReadinessContext where
  profile : InspectionProfile
  trustProfile : Option TrustProfile
  tenantRootCA : Option TenantRootCA
  quicApplicable : Bool

def requestIndicatesQUIC (req : DecisionRequest) : Bool :=
  normalizedRiskValue req.protocol ∈ ["udp","quic"] ||
    normalizedRiskValue req.serviceFamily ∈ ["quic","http3","http_3","https_quic"]

def quicPolicyRequiresTCPTLS (profile : InspectionProfile) : Bool :=
  normalizedRiskValue profile.quicPolicyAction ∈
    ["tcp_tls_required","prefer_tcp_tls","redirect_to_tcp_tls","disable_http3"]

/-- The profile ID a policy names, trimmed; empty when it names none. -/
def namedInspectionProfile (policy : Policy) : String := trimSpace (policy.inspectionProfileID.getD "")

def resolvedInspectionProfile (bundle : PolicyBundle) (policy : Policy) (req : DecisionRequest) :
    Option InspectionProfile :=
  if namedInspectionProfile policy = "" then none
  else (inspectionProfileByID bundle (namedInspectionProfile policy)).filter fun profile =>
    tenantMatches profile.tenantID bundle.tenantID policy.tenantID req.tenantID

def tlsInspectionReadinessContextFor (bundle : PolicyBundle) (policy : Policy) (req : DecisionRequest) :
    Option TLSInspectionReadinessContext :=
  (resolvedInspectionProfile bundle policy req).map fun profile =>
    let trustProfile := (trustProfileByID bundle profile.trustProfileID).filter fun p =>
      tenantMatches p.tenantID bundle.tenantID policy.tenantID req.tenantID
    let rootCAID := if profile.tenantRootCAID = "" then (trustProfile.map (·.tenantRootCAID)).getD ""
      else profile.tenantRootCAID
    { profile := profile
      trustProfile := trustProfile
      tenantRootCA := (tenantRootCAByID bundle rootCAID).filter fun ca =>
        tenantMatches ca.tenantID bundle.tenantID policy.tenantID req.tenantID
      quicApplicable := requestIndicatesQUIC req }

namespace TLSInspectionReadinessContext

variable (ctx : TLSInspectionReadinessContext)

def routing : String × String :=
  if ctx.profile.tlsInterceptionEnabled then ("tls_readiness_candidate","post_mvp_tls")
  else if normalizedRiskValue ctx.profile.inspectionMode = "passthrough" then
    ("passthrough","not_executed_metadata_only")
  else ("metadata_inspection","metadata_inspection_only")

def redirectsQUIC : Bool := ctx.quicApplicable && quicPolicyRequiresTCPTLS ctx.profile

def appendReasonCodes (reasonCodes : List String) : List String :=
  let codes := appendUniqueString reasonCodes "tls_inspection_readiness_policy_layer"
  if ctx.redirectsQUIC then appendUniqueString codes "quic_tcp_tls_required" else codes

def appendActions (req : DecisionRequest) (policy : Policy) (actions : List DecisionAction) :
    List DecisionAction :=
  if ctx.redirectsQUIC then
    actions ++ [{ type := "emit_audit_event"
                  metadata := Map.ofEntries
                    [("audit_event_type",.str "tls_inspection_readiness_quic_policy"),
                      ("application_id",.str req.applicationID),("inspection_profile_id",.str ctx.profile.id),
                      ("policy_id",.str policy.id),("quic_policy_action",.str ctx.profile.quicPolicyAction),
                      ("recommended_transport",.str "tcp_tls"),("network_extension_runtime_used",.bool false)] }]
  else actions

/-- The trust profile and the root CA of a context are reported, never acted upon: what a decision reads of the
context is its profile and the QUIC flag. -/
theorem acts_congr {ctx ctx' : TLSInspectionReadinessContext} (hp : ctx.profile = ctx'.profile)
    (hq : ctx.quicApplicable = ctx'.quicApplicable) :
    ctx.routing = ctx'.routing ∧ ctx.appendReasonCodes = ctx'.appendReasonCodes ∧
      ctx.appendActions = ctx'.appendActions := by
  have hr : ctx.redirectsQUIC = ctx'.redirectsQUIC := by simp [redirectsQUIC,hp,hq]
  refine ⟨by simp [routing,hp],?_,?_⟩
  · funext codes
    simp [appendReasonCodes,hr]
  · funext req policy actions
    simp [appendActions,hr,hp]

end TLSInspectionReadinessContext
end DsseCore.Decision
