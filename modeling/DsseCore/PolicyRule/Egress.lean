import DsseCore.PolicyRule.Rule

/-!
# Compiling egress rules

An authored egress rule becomes a family of policies: one for every resolved address and host key, every kind of
source selector and every transport of its service.
-/

namespace DsseCore.PolicyRule

open Go Model

abbrev Conditions := List (String × Value)

/-- The asset catalog as the egress compiler sees it.  A catalog that cannot tell transports apart has no
`serviceTransportPorts`. -/
structure EgressResolver where
  sourceDeviceTokens : String → List String → List String
  endpointAddresses : String → List String → List String
  serviceTransportPorts : Option (String → String → Map (List Int))

def sourceNoMatchSentinel : String := "\x00no-such-source-device"

def destinationNoMatchSentinel : String := "\x00no-such-destination"

def validTransport (protocol : String) (ports : List Int) : Bool :=
  (protocol == "tcp" || protocol == "udp") && ports ≠ [] && ports.all fun port => 1 ≤ port && port ≤ 65535

/-- The transports of a named service, when the catalog knows it and every entry is well formed. -/
def resolvedTransports (tenant serviceID : String) (resolver : EgressResolver) : Option (Map (List Int)) :=
  match resolver.serviceTransportPorts with
  | none => none
  | some lookup =>
    let transports := lookup tenant serviceID
    if transports.isEmpty then none
    else if transports.toList.all fun e => validTransport e.1 e.2 then some transports
    else none

def portSet (ports : List Int) : List Int := ports.dedup.insertionSort (· ≤ ·)

def portCondition : List Int → Value
  | [port] => .int port
  | ports => .list (ports.map Value.int)

def transportConditions (transports : Map (List Int)) : List Conditions :=
  ["tcp","udp"].filterMap fun protocol =>
    let ports := portSet (transports[protocol]?.getD [])
    if ports = [] then none
    else some [("protocol",.str protocol),("destination_port",portCondition ports)]

/-- The transport conditions of a service and whether it resolved.  No service is every service; a service that
does not resolve matches nothing. -/
def egressServiceConditions (tenant serviceID : String) (resolver : EgressResolver) :
    List Conditions × Bool :=
  if serviceID = "" then ([[]],true)
  else match resolvedTransports tenant serviceID resolver with
    | none => ([[("protocol",.list [])]],false)
    | some transports => (transportConditions transports,true)

/-- A service that does not resolve must not lift a restriction: other rules than allow cover every port. -/
def ruleTransports (tenant : String) (r : Rule) (resolver : EgressResolver) : List Conditions :=
  let (transports,resolved) := egressServiceConditions tenant r.serviceID resolver
  if ¬ resolved ∧ r.action.access ≠ "allow" then [[]] else transports

def identityGroups (source : List String) : List String := source.filterMap identityGroupToken

def identityUsers (source : List String) : List String :=
  (source.filter fun s => (identityGroupToken s).isNone).filterMap identityUserToken

def agentIDs (source : List String) : List String :=
  (source.filter fun s => (identityGroupToken s).isNone && (identityUserToken s).isNone).filterMap agentToken

def deviceIDs (source : List String) : List String :=
  source.filter fun s =>
    (identityGroupToken s).isNone && (identityUserToken s).isNone && (agentToken s).isNone

def deviceValues (tenant : String) (source : List String) (resolver : EgressResolver) : List String :=
  let tokens := resolver.sourceDeviceTokens tenant (deviceIDs source)
  if tokens = [] then [sourceNoMatchSentinel] else tokens

def strings (l : List String) : Value := .list (l.map Value.str)

/-- A restriction on one key, when there is anything to restrict to. -/
def sourceCondition (present : List String) (key : String) (values : List String) : List Conditions :=
  if present = [] then [] else [[(key,strings values)]]

/-- One entry for each kind of source selector; a request passes when one of them holds. -/
def sourceConditions (tenant : String) (source : List String) (resolver : EgressResolver) : List Conditions :=
  if isAnySubject source then [[]]
  else
    let conds :=
      sourceCondition (deviceIDs source) "device_id" (deviceValues tenant source resolver) ++
        sourceCondition (identityGroups source) "user_groups" (identityGroups source) ++
        sourceCondition (identityUsers source) "user_id" (identityUsers source) ++
        sourceCondition (agentIDs source) "actor_nhi_id" (agentIDs source)
    if conds = [] then [[("device_id",strings [sourceNoMatchSentinel])]] else conds

/-- A steered flow is known by its SNI, a plain one by its FQDN, so every address is compiled under both keys. -/
def addressConditions (e : String × ℕ) : List (String × Conditions) :=
  [("-" ++ itoa e.2 ++ "-fqdn",[("fqdn",.str e.1)]),("-" ++ itoa e.2 ++ "-sni",[("sni",.str e.1)])]

def hostConditions (tenant : String) (destination : List String) (resolver : EgressResolver) :
    List (String × Conditions) :=
  if isAnySubject destination then [("-any",[])]
  else
    let addresses := (resolver.endpointAddresses tenant destination).zipIdx.filter fun e => trimSpace e.1 ≠ ""
    if addresses = [] then [("-nomatch",[("fqdn",.str destinationNoMatchSentinel)])]
    else addresses.flatMap addressConditions

def egressDecision (access : String) : Option String :=
  match access with
  | "allow" => some "allow"
  | "deny" => some "deny"
  | "authenticate" => some "require_reauthentication"
  | _ => none

/-- The step-up requirements an authenticate rule hands to the evaluator. -/
def stepUpMeta (action : Action) : Map Value :=
  if action.access ≠ "authenticate" then ∅
  else
    let md := (∅ : Map Value).insertIf (action.requiredIdPID ≠ "") "required_idp_id" (.str action.requiredIdPID)
    let md := md.insertIf (action.minACR ≠ "") "min_acr" (.str action.minACR)
    let md := md.insertIf (action.requiredAMR ≠ []) "required_amr" (.str (join "," action.requiredAMR))
    let md := md.insertIf (0 < action.grantTTLSeconds) "grant_ttl_seconds" (.int action.grantTTLSeconds)
    match action.maxAgeSeconds with
    | some n => md.insert "max_age_seconds" (.int n)
    | none => md

def riskConditions (threshold : String) : Conditions :=
  let values := riskSeveritiesAtLeast threshold
  if values = [] then [] else [("risk_state_severity",strings values)]

def protocolOf (transport : Conditions) : String :=
  match transport.lookup "protocol" with
  | some (.str protocol) => protocol
  | _ => ""

def egressPolicy (tenant : String) (r : Rule) (decision suffix : String) (conditions : Conditions) : Policy where
  id := "rule-egress-" ++ r.id ++ suffix
  tenantID := tenant
  name := "Authored egress rule " ++ r.id
  priority := r.priority
  status := "active"
  conditions := Map.ofEntries conditions
  action := { decision := decision }
  dlp := r.action.dlp
  allowedToolIDs := r.allowedToolIDs
  requiredWorkloadAttestation := r.action.requireWorkloadAttestation
  metadata := stepUpMeta r.action

/-- Every source restriction and transport under one host condition.  The mark of a source or a transport enters
the ID only when there are several. -/
def appendPolicy (tenant : String) (r : Rule) (decision : String) (sources transports : List Conditions)
    (host : String × Conditions) : List Policy :=
  sources.zipIdx.flatMap fun (source,si) => transports.map fun transport =>
    let suffix := if 1 < sources.length then host.1 ++ "-s" ++ itoa si else host.1
    let suffix := if 1 < transports.length then suffix ++ "-" ++ protocolOf transport else suffix
    egressPolicy tenant r decision suffix (host.2 ++ source ++ transport ++ riskConditions r.riskAtLeast)

def compileEgressRule (tenant : String) (resolver : EgressResolver) (r : Rule) : List Policy :=
  if (r.tenantID ≠ "" ∧ r.tenantID ≠ tenant) ∨ r.plane ≠ "egress" ∨ r.status ≠ "active" then []
  else match egressDecision r.action.access with
    | none => []
    | some decision =>
      (hostConditions tenant r.destination resolver).flatMap
        (appendPolicy tenant r decision (sourceConditions tenant r.source resolver)
          (ruleTransports tenant r resolver))

def compileEgressPolicies (tenant : String) (rules : List Rule) (resolver : EgressResolver) : List Policy :=
  rules.flatMap (compileEgressRule tenant resolver)

end DsseCore.PolicyRule
