import DsseCore.Decision.BreakGlass
import DsseCore.Go.Sort

/-!
# East-west authorization

Lateral traffic is governed hop by hop: where the destination lies, which rule wins, and what a rule's mode means
for the request.
-/

namespace DsseCore.Decision

open Go Model

inductive DestinationLocality where
  | unknown
  | internal
  | public_
  deriving DecidableEq

/-- What the operator declares to be inside the estate, on top of private address space. -/
structure InternalNetworks where
  cidrs : List String := []
  domains : List String := []

def InternalNetworks.matchesCIDR (n : InternalNetworks) (ip : Addr) : Bool :=
  n.cidrs.any fun c =>
    match Prefix.parse (trimSpace c) with
    | some p => p.is4 == ip.is4 && p.contains ip
    | none => false

def InternalNetworks.matchesDomain (n : InternalNetworks) (fqdn : String) : Bool :=
  let fqdn := trimSuffix (toLower (trimSpace fqdn)) "."
  if fqdn = "" then false
  else n.domains.any fun d =>
    let d := trimSuffix (trimPrefix (toLower (trimSpace d)) "*.") "."
    d ≠ "" && (fqdn == d || hasSuffix fqdn ("." ++ d))

def destinationHost (req : DecisionRequest) : String :=
  let d := trimSpace req.destination
  if d = "" then ""
  else match splitHostPortHost d with
    | some h => trimSpace h
    | none => trimCutset d ['[',']']

def parseIPCandidate (values : List String) : Option Addr :=
  values.findSome? fun v =>
    let v := trimCutset (trimSpace v) ['[',']']
    if v = "" then none else (Addr.parse v).map Addr.unmap

def cgnat : Prefix := .v4 0x64400000#32 10

def isInternalAddress (ip : Addr) : Bool :=
  ip.isLoopback || ip.isPrivate || ip.isLinkLocalUnicast || ip.isLinkLocalMulticast ||
    ip.isInterfaceLocalMulticast || ip.isUnspecified || (ip.is4 && cgnat.contains ip)

def classifyDestinationLocality (req : DecisionRequest) (declared : InternalNetworks) : DestinationLocality :=
  let host := destinationHost req
  let named := toLower (trimSpace req.fqdn)
  let fqdn := if named = "" ∧ host ≠ "" ∧ ¬ isIP host then toLower host else named
  if fqdn ≠ "" ∧ declared.matchesDomain fqdn then .internal
  else match parseIPCandidate [host,req.destinationIP,req.destinationResolvedIP] with
    | none => .unknown
    | some ip =>
      if declared.matchesCIDR ip then .internal
      else if isInternalAddress ip then .internal
      else .public_

def eastWestLocalityAdmits (locality : DestinationLocality) : Bool := locality != .public_

def eastWestProtocols : List String :=
  ["rdp","smb","cifs","winrm","wmi_rpc","dcom_rpc","ssh","vnc","rmm","rmm_agent","database","db","management_tcp"]

def isEastWestProtocol (serviceFamily : String) : Bool := toLower (trimSpace serviceFamily) ∈ eastWestProtocols

/-- A verified connector route is lateral whatever its address; otherwise the protocol and the place decide. -/
def isEastWestFlow (req : DecisionRequest) (declared : InternalNetworks) : Bool :=
  req.connectorRouteVerified ||
    (isEastWestProtocol req.serviceFamily && eastWestLocalityAdmits (classifyDestinationLocality req declared))

/-- An authorization of lateral access.  Empty selector lists mean any; a service that is `none` means any as
well, while an empty port table matches nothing. -/
structure EastWestRule where
  id : String := ""
  priority : Int := 0
  sourceUsers : List String := []
  sourceGroups : List String := []
  sourceDevices : List String := []
  destinations : List String := []
  protocols : List String := []
  serviceTransportPorts : Option (Map (List Int)) := none
  mode : String := ""
  warn : Bool := false
  maxTTLSeconds : Int := 0
  deviceAttestedAuto : Bool := false
  requiredWorkloadAttestation : Bool := false
  requiredIdPID : String := ""
  minACR : String := ""
  requiredAMR : List String := []
  maxAgeSeconds : Int := 0
  maxAgeSecondsSet : Bool := false
  riskSeverities : List String := []
  deriving DecidableEq

/-- The transport-bound identity when there is one, else what the client claims. -/
def authoritativeDeviceIdentity (req : DecisionRequest) : String :=
  if trimSpace req.transportDeviceIdentity ≠ "" then trimSpace req.transportDeviceIdentity
  else trimSpace req.deviceID

/-- A non-blank selector entry equals a candidate, both trimmed. -/
def selectorHits (selector candidates : List String) : Bool :=
  selector.any fun s => trimSpace s ≠ "" && candidates.any fun c => trimSpace s == trimSpace c

def eastWestSelectorMatches (selector candidates : List String) : Bool :=
  selector.isEmpty || selectorHits selector candidates

/-- Two texts name the same address once IPv4-mapped forms are unmapped. -/
def sameAddress (s c : String) : Bool :=
  match Addr.parse (trimSpace s), Addr.parse (trimSpace c) with
  | some want, some got => want.unmap == got.unmap
  | _, _ => false

def eastWestDestinationMatches (selector candidates : List String) : Bool :=
  eastWestSelectorMatches selector candidates ||
    selector.any fun s => candidates.any fun c => sameAddress s c

namespace EastWestRule

variable (r : EastWestRule)

/-- The source selectors that are set form a union; when none is set the source is a wildcard. -/
def sourceMatches (req : DecisionRequest) : Bool :=
  if r.sourceUsers = [] ∧ r.sourceGroups = [] ∧ r.sourceDevices = [] then true
  else
    (r.sourceUsers ≠ [] && eastWestSelectorMatches r.sourceUsers [req.userID,req.subjectUserID]) ||
      (r.sourceGroups ≠ [] && eastWestSelectorMatches r.sourceGroups req.userGroups) ||
      (r.sourceDevices ≠ [] && eastWestSelectorMatches r.sourceDevices [authoritativeDeviceIdentity req])

def serviceMatches (req : DecisionRequest) : Bool :=
  match r.serviceTransportPorts with
  | none => eastWestSelectorMatches r.protocols [req.serviceFamily]
  | some table =>
    (table[toLower (trimSpace req.protocol)]?.getD []).any fun port =>
      port == req.destinationPort && decide (0 < port)

def matchesRequest (req : DecisionRequest) : Bool :=
  r.sourceMatches req && eastWestDestinationMatches r.destinations [req.destination,req.applicationID,req.fqdn] &&
    r.serviceMatches req && eastWestSelectorMatches r.riskSeverities [req.riskStateSeverity]

end EastWestRule

def matchedEastWestRule (rules : List EastWestRule) (req : DecisionRequest) : Option EastWestRule :=
  (sliceStable (fun r q => decide (r.priority < q.priority)) rules).find? (·.matchesRequest req)

structure EastWestGrant where
  subjectUserID : String := ""
  deviceID : String := ""
  destination : String := ""
  protocol : String := ""
  expiresAt : Time := Time.zero
  lastUsedAt : Time := Time.zero
  idleTTLSeconds : Int := 0

def EastWestGrant.matchesRequest (g : EastWestGrant) (req : DecisionRequest) (now : Time) : Bool :=
  decide (now < g.expiresAt) &&
    !(decide (0 < g.idleTTLSeconds) &&
      decide ((g.idleTTLSeconds * Time.second).bmod (2 ^ 64) < Time.sub now g.lastUsedAt)) &&
    (g.protocol == "" || equalFold g.protocol (trimSpace req.serviceFamily)) &&
    (g.subjectUserID == "" || g.subjectUserID == req.subjectUserID || g.subjectUserID == req.userID) &&
    (g.deviceID == "" || g.deviceID == authoritativeDeviceIdentity req) &&
    (g.destination == "" || g.destination == req.destination || g.destination == req.applicationID)

def eastWestDeviceAttestationEligible (req : DecisionRequest) : Bool :=
  req.transportClientCertVerified && trimSpace req.transportDeviceIdentity ≠ ""

inductive EastWestMode where
  | allow
  | authenticate
  | deny
  deriving DecidableEq

def eastWestMode (mode : String) : EastWestMode :=
  match toLower (trimSpace mode) with
  | "allow" => .allow
  | "authenticate" => .authenticate
  | _ => .deny

def eastWestStepUpActions (rule : EastWestRule) : List DecisionAction :=
  let md := Map.ofEntries [("east_west",Value.bool true)]
  let md := Map.insertIf md (trimSpace rule.requiredIdPID ≠ "") "required_idp_id" (.str (trimSpace rule.requiredIdPID))
  let md := Map.insertIf md (trimSpace rule.minACR ≠ "") "min_acr" (.str (trimSpace rule.minACR))
  let md := Map.insertIf md (rule.requiredAMR ≠ []) "required_amr" (.strs rule.requiredAMR)
  let md := Map.insertIf md (rule.maxTTLSeconds ≠ 0) "grant_ttl_seconds" (.int rule.maxTTLSeconds)
  let md := Map.insertIf md (rule.maxAgeSecondsSet || rule.maxAgeSeconds ≠ 0) "max_age_seconds"
    (.int rule.maxAgeSeconds)
  [{ type := "prompt_reauthentication"
     ttlSeconds := if 0 < rule.maxAgeSeconds then some rule.maxAgeSeconds else none
     metadata := md }]

def eastWestWarnActions (rule : EastWestRule) (req : DecisionRequest) : List DecisionAction :=
  let md := Map.ofEntries
    [("east_west",Value.bool true),
      ("message",.str "This internal connection is monitored. Authentication will soon be required to reach it.")]
  let md := Map.insertIf md (trimSpace req.destination ≠ "") "destination" (.str (trimSpace req.destination))
  let md := Map.insertIf md (trimSpace req.serviceFamily ≠ "") "service_family" (.str (trimSpace req.serviceFamily))
  let md := Map.insertIf md (trimSpace rule.id ≠ "") "rule_id" (.str (trimSpace rule.id))
  [{ type := "warn_notice", metadata := md }]

structure EastWestConfig where
  enabled : Bool := false
  allowUnmatched : Bool := false
  internalNetworks : InternalNetworks := {}
  rules : List EastWestRule := []
  maxGrantTTLSeconds : Int := 0
  grants : List EastWestGrant := []

/-- An explicit human ceremony that grants and device attestation cannot replace. -/
def EastWestRule.requiresFederatedProof (rule : EastWestRule) : Bool :=
  rule.maxAgeSecondsSet || rule.maxAgeSeconds ≠ 0 || trimSpace rule.requiredIdPID ≠ "" ||
    trimSpace rule.minACR ≠ "" || rule.requiredAMR ≠ []

/-- The tenant's ceiling on grant lifetimes; a negative ceiling is passed on so that it fails closed. -/
def EastWestRule.capTTL (rule : EastWestRule) (cap : Int) : EastWestRule :=
  if cap < 0 then { rule with maxTTLSeconds := cap }
  else if 0 < cap ∧ (rule.maxTTLSeconds = 0 ∨ (0 < rule.maxTTLSeconds ∧ cap < rule.maxTTLSeconds)) then
    { rule with maxTTLSeconds := cap }
  else rule

def eastWestAuthenticate (cfg : EastWestConfig) (now : Time) (req : DecisionRequest) (rule : EastWestRule) :
    Outcome :=
  if ¬ rule.requiresFederatedProof ∧ cfg.grants.any (·.matchesRequest req now) then
    ⟨"allow",["east_west_grant_satisfied"],[]⟩
  else if ¬ rule.requiresFederatedProof ∧ rule.deviceAttestedAuto ∧ eastWestDeviceAttestationEligible req then
    ⟨"allow",["east_west_device_attested"],[]⟩
  else
    ⟨"authenticate_required",["east_west_authentication_required"],
      eastWestStepUpActions (rule.capTTL cfg.maxGrantTTLSeconds)⟩

def eastWestDecisionFor (cfg : EastWestConfig) (now : Time) (req : DecisionRequest) : Outcome :=
  match matchedEastWestRule cfg.rules req with
  | none =>
    if cfg.allowUnmatched then ⟨"allow",["east_west_unmatched_allow"],[]⟩
    else ⟨"deny",["east_west_default_deny"],[]⟩
  | some rule =>
    let mode := eastWestMode rule.mode
    if rule.warn ∧ mode ≠ .allow then ⟨"allow",["east_west_warn"],eastWestWarnActions rule req⟩
    else if mode ≠ .deny ∧ rule.requiredWorkloadAttestation ∧
        ¬ workloadAttestationSatisfied req.workloadAttestationState then
      ⟨"require_workload_attestation",["east_west_workload_attestation_required"],
        [workloadAttestationAction req rule.id]⟩
    else match mode with
      | .allow => ⟨"allow",["east_west_policy_allow"],[]⟩
      | .authenticate => eastWestAuthenticate cfg now req rule
      | .deny => ⟨"deny",["east_west_policy_deny"],[]⟩

end DsseCore.Decision
