import DsseCore.Decision.Basic
import DsseCore.Go.Netip

/-!
# Conditions of a policy

How one condition `key: expected` is tested against a request.  Every clock reading of a decision is the same
instant `now`.
-/

namespace DsseCore.Decision

open Go Model Value

def anyActualEquals (actual : List String) (expected : String) : Bool := actual.contains expected

def anyActualInExpectedValues (actual : List String) : Value → Bool
  | .list values => actual.any fun v => (values.map sprint).contains v
  | _ => false

def anyActualNumberCompare (actual : List String) (expectedValue : Value)
    (compare : Float64 → Float64 → Bool) : Bool :=
  match Float64.parse expectedValue.sprint with
  | none => false
  | some expected => actual.any fun v =>
    match Float64.parse v with
    | some n => compare n expected
    | none => false

def conditionValues : Value → List String
  | .list l => l.map sprint
  | .strs l => l
  | .null => []
  | v => [v.sprint]

/-- One address text against one prefix text, in the form it was given and unmapped. -/
def cidrContains (prefixText addrText : String) : Bool :=
  match Addr.parse addrText, Prefix.parse prefixText with
  | some a, some p => p.contains a || p.contains a.unmap
  | _, _ => false

def anyActualCIDRContains (actual : List String) (expectedValue : Value) : Bool :=
  actual.any fun v => (conditionValues expectedValue).any fun p => cidrContains p v

def conditionMatches (actual : List String) (expected : Value) : Bool :=
  if actual = [] then false
  else match expected with
    | .map typed =>
      match (field typed "op").sprint with
      | "eq" => anyActualEquals actual (field typed "value").sprint
      | "equals" => anyActualEquals actual (field typed "value").sprint
      | "in" => anyActualInExpectedValues actual (field typed "values")
      | "contains" => anyActualEquals actual (field typed "value").sprint
      | "lte" => anyActualNumberCompare actual (field typed "value") fun a b => a.le b
      | "gte" => anyActualNumberCompare actual (field typed "value") fun a b => b.le a
      | "cidr_contains" =>
        anyActualCIDRContains actual (field typed "value") ||
          anyActualCIDRContains actual (field typed "values")
      | _ => false
    | .list l => anyActualInExpectedValues actual (.list l)
    | v => anyActualEquals actual v.sprint

def hostMatchesPattern (host pattern : String) : Bool :=
  let host := trimSpace (toLower host)
  let pattern := trimSpace (toLower pattern)
  if host = "" ∨ pattern = "" then false
  else if hasPrefix pattern "*." then
    let suffix := trimPrefix pattern "*."
    if suffix = "" ∨ host = suffix then false else hasSuffix host ("." ++ suffix)
  else host == pattern

/-- The host patterns an expected value offers; `none` where an operator has no host reading. -/
def hostPatterns : Value → Option (List String)
  | .map typed =>
    match (field typed "op").sprint with
    | "eq" => some [(field typed "value").sprint]
    | "equals" => some [(field typed "value").sprint]
    | "contains" => some [(field typed "value").sprint]
    | "in" => match field typed "values" with
      | .list l => some (l.map sprint)
      | _ => some []
    | _ => none
  | .list l => some (l.map sprint)
  | v => some [v.sprint]

def hostnameConditionMatches (actual : List String) (expected : Value) : Bool :=
  match hostPatterns expected with
  | some patterns => actual.any fun h => patterns.any fun p => hostMatchesPattern h p
  | none => false

def isHostnameConditionKey (key : String) : Bool := key == "fqdn" || key == "sni"

/-- A client that dialled a bare address carries it in `Destination` only. -/
def ipLiteralConditionMatchesDestination (destination : String) (expected : Value) : Bool :=
  let dst := trimSpace destination
  if dst = "" then false
  else match Addr.parse dst with
    | none => false
    | some addr =>
      conditionMatches [dst,addr.unmap.text] expected || anyActualCIDRContains [dst] expected

def ageSeconds (now t : Time) : Int := max 0 (Time.wholeSeconds (Time.sub now t))

def authAgeSeconds (now : Time) (authTime : String) : String :=
  if authTime = "" then ""
  else match Time.parseRFC3339 authTime with
    | none => ""
    | some t => itoa (ageSeconds now t)

def breakGlassAuthAgeSeconds (now : Time) (authTime : String) : Option Int :=
  if trimSpace authTime = "" then none else (Time.parseRFC3339 authTime).map (ageSeconds now)

def destinationAddressScope (req : DecisionRequest) : String :=
  let ip := trimSpace req.destinationIP
  let candidate := if ip = "" then trimSpace req.destination else ip
  match Addr.parse (trimCutset candidate ['[',']']) with
  | none => "public"
  | some addr =>
    if addr.isLoopback then "loopback"
    else if addr.isLinkLocalUnicast || addr.isLinkLocalMulticast then "link_local"
    else if addr.isPrivate then "private"
    else "public"

def userIDValues (req : DecisionRequest) : List String :=
  singleValue req.userID ++ if req.subjectUserID ≠ req.userID then singleValue req.subjectUserID else []

def fieldValues (now : Time) (req : DecisionRequest) (actorType key : String) : List String :=
  match key with
  | "actor_type" => singleValue actorType
  | "actor_nhi_id" => singleValue req.actorNHIID
  | "nhi_risk_severity" => singleValue req.nhiRiskSeverity
  | "transport_client_cert_verified" => singleValue (formatBool req.transportClientCertVerified)
  | "transport_device_identity" => singleValue req.transportDeviceIdentity
  | "delegated_access_grant_id" => singleValue req.delegatedAccessGrantID
  | "agent_task_session_id" => singleValue req.agentTaskSessionID
  | "tool_id" => singleValue req.toolID
  | "tool_action_type" => singleValue req.toolActionType
  | "tool_permission_profile" => singleValue req.toolPermissionProfile
  | "tool_version" => singleValue req.toolVersion
  | "tool_signature_state" => singleValue req.toolSignatureState
  | "mcp_server_id" => singleValue req.mcpServerID
  | "mcp_resource_uri" => singleValue req.mcpResourceURI
  | "mcp_audience" => singleValue req.mcpAudience
  | "mcp_token_passthrough_policy" => singleValue req.mcpTokenPassthroughPolicy
  | "runtime_environment_id" => singleValue req.runtimeEnvironmentID
  | "context_boundary_id" => singleValue req.contextBoundaryID
  | "data_classification" => singleValue req.dataClassification
  | "tenant_id" => singleValue req.tenantID
  | "session_id_present" => singleValue (formatBool (trimSpace req.sessionID ≠ ""))
  | "application_id" => singleValue req.applicationID
  | "service_family" => singleValue req.serviceFamily
  | "fqdn" => singleValue req.fqdn
  | "sni" => singleValue req.sni
  | "saas_application_id" => singleValue req.saasApplicationID
  | "saas_name" => singleValue req.saasName
  | "saas_provider" => singleValue req.saasProvider
  | "saas_category" => singleValue req.saasCategory
  | "saas_risk_tier" => singleValue req.saasRiskTier
  | "saas_match_type" => singleValue req.saasMatchType
  | "inspection_profile_id" => singleValue req.inspectionProfileID
  | "inspection_mode" => singleValue req.inspectionMode
  | "trust_profile_id" => singleValue req.trustProfileID
  | "tenant_root_ca_id" => singleValue req.tenantRootCAID
  | "quic_policy_mode" => singleValue req.quicPolicyMode
  | "quic_policy_action" => singleValue req.quicPolicyAction
  | "protocol" => singleValue req.protocol
  | "steering_mode" => singleValue req.steeringMode
  | "destination_port" => if req.destinationPort = 0 then [] else singleValue (itoa req.destinationPort)
  | "user_groups" => req.userGroups
  | "user_id" => userIDValues req
  | "mfa_state" => singleValue req.mfaState
  | "acr" => singleValue req.acr
  | "amr" => req.amr
  | "idp_id" => singleValue req.idpID
  | "issuer" => singleValue req.issuer
  | "authentication_event_id" => singleValue req.authenticationEventID
  | "auth_time" => singleValue req.authTime
  | "auth_age_seconds" => singleValue (authAgeSeconds now req.authTime)
  | "auth_method" => singleValue req.authMethod
  | "source_ip" => singleValue req.sourceIP
  | "device_id" => singleValue req.deviceID
  | "device_trust_level" => singleValue req.deviceTrustLevel
  | "source_role" => singleValue req.sourceRole
  | "destination_role" => singleValue req.destinationRole
  | "connection_initiator" => singleValue req.connectionInitiator
  | "source_server" => singleValue req.sourceServer
  | "destination_address_scope" => singleValue (destinationAddressScope req)
  | "token_binding_state" => singleValue req.tokenBindingState
  | "workload_attestation_state" => singleValue req.workloadAttestationState
  | "human_approval_event_id" => singleValue req.humanApprovalEventID
  | "human_approval_event_trust_state" => singleValue req.humanApprovalEventTrustState
  | "human_approval_event_binding_state" => singleValue req.humanApprovalEventBindingState
  | "human_approval_event_freshness_state" => singleValue req.humanApprovalEventFreshnessState
  | "risk_state_id" => singleValue req.riskStateID
  | "risk_state_severity" => singleValue req.riskStateSeverity
  | "risk_recommended_action" => singleValue req.riskRecommendedAction
  | "risk_signal_sources" => req.riskSignalSources
  | "admin_high_risk" => trueValue req.adminHighRisk
  | "idp_risk_level" => singleValue req.idpRiskLevel
  | "agent_tamper_signal" => trueValue req.agentTamperSignal
  | "authentication_anomaly" => trueValue req.authenticationAnomaly
  | _ => []

/-- One condition against a request: the plain comparison, and for host names the wildcard and the dialled
address. -/
def matchCondition (now : Time) (req : DecisionRequest) (actorType key : String) (expected : Value) : Bool :=
  let actual := fieldValues now req actorType key
  conditionMatches actual expected ||
    (isHostnameConditionKey key &&
      (hostnameConditionMatches actual expected ||
        ipLiteralConditionMatchesDestination req.destination expected))

end DsseCore.Decision
