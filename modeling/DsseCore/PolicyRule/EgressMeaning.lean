import DsseCore.Decision.Match
import DsseCore.PolicyRule.Egress

/-!
# What a compiled egress rule matches

The authored meaning of a rule, the ways a request can fall outside it, and what a single condition of a compiled
policy tests.
-/

namespace DsseCore.PolicyRule

open Go Model Decision

section Meaning

variable (tenant : String) (r : Rule) (resolver : EgressResolver) (req : DecisionRequest)

def resolvedDevices : List String :=
  if deviceIDs r.source = [] then [] else resolver.sourceDeviceTokens tenant (deviceIDs r.source)

def resolvedAddresses : List String :=
  (resolver.endpointAddresses tenant r.destination).filter fun addr => trimSpace addr ≠ ""

def SourceCovers : Prop :=
  isAnySubject r.source = true ∨
    (req.deviceID ≠ "" ∧ req.deviceID ∈ resolvedDevices tenant r resolver) ∨
    (∃ g ∈ req.userGroups, g ∈ identityGroups r.source) ∨
    (∃ u ∈ userIDValues req, u ∈ identityUsers r.source) ∨
    req.actorNHIID ∈ agentIDs r.source

/-- A host name is the address, or a sub-domain of a wildcard. -/
def hostCovers (host addr : String) : Bool := host ≠ "" && (host == addr || hostMatchesPattern host addr)

/-- A dialled address is written like the authored one, or lies in the authored prefix. -/
def literalCovers (destination addr : String) : Bool :=
  match Addr.parse (trimSpace destination) with
  | none => false
  | some dialled =>
    addr == trimSpace destination || addr == dialled.unmap.text || cidrContains addr (trimSpace destination)

/-- A dialled address is the authored one, however either is written. -/
def sameLiteral (destination addr : String) : Bool :=
  match Addr.parse (trimSpace destination), Addr.parse addr with
  | some dialled, some authored => authored.unmap == dialled.unmap
  | _, _ => false

def addressCovers (addr : String) : Bool :=
  hostCovers req.fqdn addr || hostCovers req.sni addr || literalCovers req.destination addr

def DestinationCovers : Prop :=
  isAnySubject r.destination = true ∨
    ∃ addr ∈ resolvedAddresses tenant r resolver,
      addressCovers req addr = true ∨ sameLiteral req.destination addr = true

def TransportCovers : Prop :=
  r.serviceID = "" ∨
    (∃ transports ports, resolvedTransports tenant r.serviceID resolver = some transports ∧
      transports[req.protocol]? = some ports ∧ req.destinationPort ∈ ports) ∨
    (resolvedTransports tenant r.serviceID resolver = none ∧ r.action.access ≠ "allow")

def RiskCovers : Prop :=
  r.riskAtLeast = "" ∨
    ∃ threshold level, riskSeverityRank r.riskAtLeast = some threshold ∧
      riskSeverityRank req.riskStateSeverity = some level ∧ threshold ≤ level

def EgressCovers : Prop :=
  SourceCovers tenant r resolver req ∧ DestinationCovers tenant r resolver req ∧
    TransportCovers tenant r resolver req ∧ RiskCovers r req

/-- The request poses as the device that stands for an unresolved source. -/
def SourceSentinelHit : Prop :=
  isAnySubject r.source = false ∧ deviceIDs r.source ≠ [] ∧ resolvedDevices tenant r resolver = [] ∧
    req.deviceID = sourceNoMatchSentinel

/-- The request names the host that stands for an unresolved destination. -/
def DestinationSentinelHit : Prop :=
  isAnySubject r.destination = false ∧ resolvedAddresses tenant r resolver = [] ∧
    trimSpace (toLower req.fqdn) = destinationNoMatchSentinel

/-- Some authored address reaches the request by its text, or the destination is any. -/
def DestinationWritten : Prop :=
  isAnySubject r.destination = true ∨ ∃ addr ∈ resolvedAddresses tenant r resolver, addressCovers req addr = true

end Meaning

section Fields

variable (now : Time) (req : DecisionRequest) (actorType : String)

theorem fieldValues_device_id : fieldValues now req actorType "device_id" = singleValue req.deviceID := rfl

theorem fieldValues_user_groups : fieldValues now req actorType "user_groups" = req.userGroups := rfl

theorem fieldValues_user_id : fieldValues now req actorType "user_id" = userIDValues req := rfl

theorem fieldValues_actor_nhi_id : fieldValues now req actorType "actor_nhi_id" = singleValue req.actorNHIID := rfl

theorem fieldValues_protocol : fieldValues now req actorType "protocol" = singleValue req.protocol := rfl

theorem fieldValues_destination_port : fieldValues now req actorType "destination_port" =
    if req.destinationPort = 0 then [] else singleValue (itoa req.destinationPort) := rfl

theorem fieldValues_risk_state_severity : fieldValues now req actorType "risk_state_severity" =
    singleValue req.riskStateSeverity := rfl

end Fields

theorem mem_singleValue {a v : String} : a ∈ singleValue v ↔ a = v ∧ v ≠ "" := by
  unfold singleValue
  split_ifs with h <;> simp [h]

variable {actual : List String}

theorem conditionMatches_str {s : String} : conditionMatches actual (.str s) = true ↔ s ∈ actual := by
  unfold conditionMatches
  split_ifs with h
  · simp [h]
  · simp [anyActualEquals,Value.sprint]

theorem conditionMatches_list {l : List Value} :
    conditionMatches actual (.list l) = true ↔ ∃ v ∈ actual, v ∈ l.map Value.sprint := by
  unfold conditionMatches
  split_ifs with h
  · simp [h]
  · simp [anyActualInExpectedValues]

theorem conditionMatches_strings {l : List String} :
    conditionMatches actual (strings l) = true ↔ ∃ v ∈ actual, v ∈ l := by
  have hmap : (l.map Value.str).map Value.sprint = l := by
    rw [List.map_map]
    exact List.map_id l
  rw [strings,conditionMatches_list,hmap]

variable {now : Time} {req : DecisionRequest} {actorType : String}

theorem matchCondition_plain {key : String} (h : isHostnameConditionKey key = false) (expected : Value) :
    matchCondition now req actorType key expected =
      conditionMatches (fieldValues now req actorType key) expected := by
  simp [matchCondition,h]

theorem ipLiteralConditionMatchesDestination_str {destination addr : String} :
    ipLiteralConditionMatchesDestination destination (.str addr) = literalCovers destination addr := by
  unfold ipLiteralConditionMatchesDestination literalCovers
  by_cases hd : trimSpace destination = ""
  · have hparse : Addr.parse "" = none := by decide +kernel
    simp [hd,hparse]
  simp only [hd]
  cases Addr.parse (trimSpace destination) with
  | none => rfl
  | some dialled =>
    have hc : conditionMatches [trimSpace destination,dialled.unmap.text] (.str addr) =
        (addr == trimSpace destination || addr == dialled.unmap.text) := by
      rw [Bool.eq_iff_iff,conditionMatches_str]
      simp
    simp only [hc]
    simp [anyActualCIDRContains,conditionValues,Value.sprint]

theorem matchCondition_host {key host : String} (hkey : isHostnameConditionKey key = true)
    (hfield : fieldValues now req actorType key = singleValue host) (addr : String) :
    matchCondition now req actorType key (.str addr) =
      (hostCovers host addr || literalCovers req.destination addr) := by
  rw [matchCondition,hfield,hkey,Bool.true_and,ipLiteralConditionMatchesDestination_str,← Bool.or_assoc]
  congr 1
  rw [Bool.eq_iff_iff,Bool.or_eq_true,conditionMatches_str,mem_singleValue]
  by_cases hh : host = ""
  · simp [hostnameConditionMatches,hostCovers,hostPatterns,singleValue,hh]
  simp only [hostnameConditionMatches,hostCovers,hostPatterns,singleValue,hh,Value.sprint,if_false,
    List.any_cons,List.any_nil,Bool.or_false,ne_eq,not_false_eq_true,and_true,decide_true,Bool.true_and,
    Bool.or_eq_true,beq_iff_eq]
  rw [@eq_comm _ addr host]

def Holds (now : Time) (req : DecisionRequest) (actorType : String) (conds : Conditions) : Prop :=
  ∀ e ∈ conds, matchCondition now req actorType e.1 e.2 = true

@[simp] theorem holds_nil : Holds now req actorType [] := fun _ h => absurd h List.not_mem_nil

@[simp] theorem holds_cons {e : String × Value} {conds : Conditions} :
    Holds now req actorType (e :: conds) ↔
      matchCondition now req actorType e.1 e.2 = true ∧ Holds now req actorType conds := List.forall_mem_cons

@[simp] theorem holds_append {a b : Conditions} :
    Holds now req actorType (a ++ b) ↔ Holds now req actorType a ∧ Holds now req actorType b :=
  List.forall_mem_append

end DsseCore.PolicyRule
