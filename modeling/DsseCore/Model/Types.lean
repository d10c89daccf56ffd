import DsseCore.Go.Time
import DsseCore.Go.Value

/-!
# Shared records

The records of package `model` that the decision path reads or writes, with the fields it uses.
-/

namespace DsseCore.Model

open Go

structure DLPSpec where
  identifiers : List String := []
  minCount : Int := 0
  onMatch : String := ""
  instanceScope : String := ""
  policyID : String := ""
  deriving DecidableEq

structure PolicyAction where
  decision : String := ""
  deriving DecidableEq

structure Policy where
  id : String := ""
  tenantID : String := ""
  name : String := ""
  priority : Int := 0
  conditions : Map Value := ∅
  action : PolicyAction := {}
  dlp : Option DLPSpec := none
  log : Option Bool := none
  requiredTokenBinding : Bool := false
  requiredHumanApproval : Bool := false
  requiredWorkloadAttestation : Bool := false
  breakGlassPolicy : Bool := false
  breakGlassIdentityID : Option String := none
  breakGlassMaxSessionSeconds : Option Int := none
  breakGlassStrongAuthRequired : Bool := false
  breakGlassAuditRequired : Bool := false
  allowedTaskPurposes : List String := []
  allowedToolIDs : List String := []
  allowedToolActions : List String := []
  allowedContextScopeIDs : List String := []
  allowedMemoryScopeIDs : List String := []
  allowedDataClassifications : List String := []
  inspectionProfileID : Option String := none
  status : String := ""
  updatedAt : Option String := none
  metadata : Map Value := ∅
  deriving DecidableEq

structure SaaSCatalogEntry where
  tenantID : String := ""
  saasApplicationID : String := ""
  name : String := ""
  provider : String := ""
  category : String := ""
  riskTier : String := ""
  domainPatterns : List String := []
  sniPatterns : List String := []

structure SaaSContext where
  saasApplicationID : String
  name : String
  provider : String
  category : String
  riskTier : String
  matchedDomain : String
  matchedPattern : String
  matchType : String

structure SWGTenantRestrictionRule where
  id : String := ""
  tenantID : String := ""
  saasApplicationID : String := ""
  provider : String := ""
  headerName : String := ""
  headerValueRef : String := ""
  headerValueKind : String := ""
  status : String := ""
  metadata : Map Value := ∅

structure DLPRule where
  id : String := ""
  tenantID : String := ""
  saasApplicationID : String := ""
  provider : String := ""
  identifiers : List String := []
  minCount : Int := 0
  onMatch : String := ""
  instanceScope : String := ""
  status : String := ""

structure SWGTLSBypassRule where
  id : String := ""
  tenantID : String := ""
  matchType : String := ""
  pattern : String := ""
  saasApplicationID : String := ""
  category : String := ""
  reason : String := ""
  status : String := ""

structure TenantRootCA where
  id : String := ""
  tenantID : String := ""
  deriving DecidableEq

structure TrustProfile where
  id : String := ""
  tenantID : String := ""
  tenantRootCAID : String := ""
  deriving DecidableEq

structure InspectionProfile where
  id : String := ""
  tenantID : String := ""
  inspectionMode : String := ""
  trustProfileID : String := ""
  tenantRootCAID : String := ""
  quicPolicyAction : String := ""
  tlsInterceptionEnabled : Bool := false
  deriving DecidableEq

structure PolicyBundle where
  id : String := ""
  tenantID : String := ""
  version : String := ""
  saasCatalog : List SaaSCatalogEntry := []
  swgTenantRestrictionRules : List SWGTenantRestrictionRule := []
  dlpRules : List DLPRule := []
  swgTLSBypassRules : List SWGTLSBypassRule := []
  tenantRootCAs : List TenantRootCA := []
  trustProfiles : List TrustProfile := []
  inspectionProfiles : List InspectionProfile := []

structure LegacyException where
  id : String := ""
  tenantID : String := ""
  businessOwner : String := ""
  expiresAt : String := ""
  sourceServer : String := ""
  deviceGroup : String := ""
  serviceFamily : String := ""
  protocol : String := ""
  port : Int := 0
  maxSessionSeconds : Int := 0
  approvalRequired : Bool := false
  mode : String := ""
  status : String := ""
  deriving DecidableEq

structure DecisionRequest where
  tenantID : String := ""
  sessionID : String := ""
  authenticationEventID : String := ""
  userID : String := ""
  subjectUserID : String := ""
  userGroups : List String := []
  actorType : String := ""
  actorNHIID : String := ""
  nhiRiskSeverity : String := ""
  transportDeviceIdentity : String := ""
  transportClientCertVerified : Bool := false
  delegatedAccessGrantID : String := ""
  agentTaskSessionID : String := ""
  toolID : String := ""
  toolActionType : String := ""
  toolPermissionProfile : String := ""
  toolVersion : String := ""
  toolSignatureState : String := ""
  mcpServerID : String := ""
  mcpResourceURI : String := ""
  mcpAudience : String := ""
  mcpTokenPassthroughPolicy : String := ""
  runtimeEnvironmentID : String := ""
  contextBoundaryID : String := ""
  dataClassification : String := ""
  amr : List String := []
  acr : String := ""
  mfaState : String := ""
  authTime : String := ""
  authMethod : String := ""
  idpID : String := ""
  issuer : String := ""
  deviceID : String := ""
  deviceTrustLevel : String := ""
  applicationID : String := ""
  connectorRouteVerified : Bool := false
  sourceIP : String := ""
  destination : String := ""
  destinationIP : String := ""
  destinationResolvedIP : String := ""
  destinationPort : Int := 0
  protocol : String := ""
  steeringMode : String := ""
  fqdn : String := ""
  sni : String := ""
  serviceFamily : String := ""
  saasApplicationID : String := ""
  saasName : String := ""
  saasProvider : String := ""
  saasCategory : String := ""
  saasRiskTier : String := ""
  saasMatchedDomain : String := ""
  saasMatchedPattern : String := ""
  saasMatchType : String := ""
  inspectionProfileID : String := ""
  inspectionMode : String := ""
  trustProfileID : String := ""
  tenantRootCAID : String := ""
  quicPolicyMode : String := ""
  quicPolicyAction : String := ""
  breakGlassRequestID : String := ""
  breakGlassReasonPresent : Bool := false
  breakGlassTicketIDPresent : Bool := false
  connectionInitiator : String := ""
  sourceServer : String := ""
  deviceGroup : String := ""
  sourceRole : String := ""
  destinationRole : String := ""
  tokenBindingState : String := ""
  workloadAttestationState : String := ""
  humanApprovalEventID : String := ""
  humanApprovalEventTrustState : String := ""
  humanApprovalEventBindingState : String := ""
  humanApprovalEventFreshnessState : String := ""
  riskStateID : String := ""
  riskStateSeverity : String := ""
  riskRecommendedAction : String := ""
  riskSignalSources : List String := []
  adminHighRisk : Bool := false
  idpRiskLevel : String := ""
  agentTamperSignal : Bool := false
  authenticationAnomaly : Bool := false

structure DecisionAction where
  type : String
  target : Option String := none
  ttlSeconds : Option Int := none
  metadata : Map Value := ∅

structure AccessDecision where
  tenantID : String
  actorType : String
  policyID : String
  policyBundleID : String
  policyBundleVersion : String
  matchedConditions : List String
  tokenBindingState : Option String
  workloadAttestationState : Option String
  decision : String
  reasonCodes : List String
  actions : List DecisionAction
  bypass : Bool
  inspectionProfileID : Option String
  inspectionMode : Option String
  inspectionRouteCategory : Option String
  inspectionExecutionScope : Option String

end DsseCore.Model
