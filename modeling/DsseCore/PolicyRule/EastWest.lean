import DsseCore.Decision.EastWest
import DsseCore.PolicyRule.EgressParts

/-!
# Compiling east-west rules

An authored outbound rule becomes one lateral rule.  There an empty selector means any, so a subject that resolves
to nothing is compiled to a stand-in that is meant to equal no request.
-/

namespace DsseCore.PolicyRule

open Go Model Decision

structure EastWestResolver where
  sourceDeviceTokens : String → List String → List String
  destinationTokens : String → List String → List String
  serviceTransportPorts : String → String → Map (List Int)

/-- A selector of the compiled rule: empty for any, the stand-in when nothing resolved. -/
def compiledSelector (subjects tokens : List String) (sentinel : String) : List String :=
  if isAnySubject subjects then [] else if tokens = [] then [sentinel] else tokens

def eastWestRuleOf (tenant : String) (resolver : EastWestResolver) (r : Rule) : EastWestRule where
  id := r.id
  priority := r.priority
  sourceDevices := compiledSelector r.source (resolver.sourceDeviceTokens tenant r.source) sourceNoMatchSentinel
  destinations :=
    compiledSelector r.destination (resolver.destinationTokens tenant r.destination) destinationNoMatchSentinel
  mode := r.action.access
  warn := r.stage == "warn"
  requiredIdPID := r.action.requiredIdPID
  minACR := r.action.minACR
  requiredAMR := r.action.requiredAMR
  deviceAttestedAuto := r.action.deviceAttestedAuto
  requiredWorkloadAttestation := r.action.requireWorkloadAttestation
  riskSeverities := riskSeveritiesAtLeast r.riskAtLeast
  maxAgeSeconds := r.action.maxAgeSeconds.getD 0
  maxAgeSecondsSet := r.action.maxAgeSeconds.isSome
  -- readers that do not know the port table must not take a named service for an unrestricted one
  protocols := if r.serviceID ≠ "" then ["__dsse_transport_port_service__"] else []
  serviceTransportPorts :=
    if r.serviceID ≠ "" then some (resolver.serviceTransportPorts tenant r.serviceID) else none
  maxTTLSeconds := if 0 < r.action.grantTTLSeconds then r.action.grantTTLSeconds else 0

/-- The rules that are compiled: active outbound east-west rules of the tenant. -/
def compilesEastWest (tenant : String) (r : Rule) : Bool :=
  (r.tenantID == "" || r.tenantID == tenant) && r.plane == "east_west" && r.status == "active" &&
    r.direction == "outbound"

def compileEastWest (tenant : String) (rules : List Rule) (resolver : EastWestResolver) : List EastWestRule :=
  (rules.filter (compilesEastWest tenant)).map (eastWestRuleOf tenant resolver)

section Meaning

variable (tenant : String) (resolver : EastWestResolver) (r : Rule) (req : DecisionRequest)

def LateralSourceCovers : Prop :=
  isAnySubject r.source = true ∨
    (authoritativeDeviceIdentity req ≠ "" ∧
      authoritativeDeviceIdentity req ∈ (resolver.sourceDeviceTokens tenant r.source).map trimSpace)

def destinationNames : List String := [req.destination,req.applicationID,req.fqdn]

def LateralDestinationCovers : Prop :=
  isAnySubject r.destination = true ∨
    ∃ token ∈ resolver.destinationTokens tenant r.destination, ∃ name ∈ destinationNames req,
      (trimSpace token ≠ "" ∧ trimSpace token = trimSpace name) ∨ sameAddress token name = true

def LateralServiceCovers : Prop :=
  r.serviceID = "" ∨
    ∃ ports, (resolver.serviceTransportPorts tenant r.serviceID)[toLower (trimSpace req.protocol)]? = some ports ∧
      req.destinationPort ∈ ports ∧ 0 < req.destinationPort

def LateralRiskCovers : Prop :=
  r.riskAtLeast = "" ∨
    ∃ threshold level, riskSeverityRank r.riskAtLeast = some threshold ∧
      riskSeverityRank (trimSpace req.riskStateSeverity) = some level ∧ threshold ≤ level

def EastWestCovers : Prop :=
  LateralSourceCovers tenant resolver r req ∧ LateralDestinationCovers tenant resolver r req ∧
    LateralServiceCovers tenant resolver r req ∧ LateralRiskCovers r req

def SourceUnresolved : Prop :=
  isAnySubject r.source = false ∧ resolver.sourceDeviceTokens tenant r.source = []

def DestinationUnresolved : Prop :=
  isAnySubject r.destination = false ∧ resolver.destinationTokens tenant r.destination = []

def ServiceUnresolved : Prop := r.serviceID ≠ "" ∧ resolver.serviceTransportPorts tenant r.serviceID = ∅

/-- The request claims to come from the stand-in of an unresolved source. -/
def LateralSourceSentinelHit : Prop :=
  SourceUnresolved tenant resolver r ∧ authoritativeDeviceIdentity req = sourceNoMatchSentinel

/-- The request names the stand-in of an unresolved destination. -/
def LateralDestinationSentinelHit : Prop :=
  DestinationUnresolved tenant resolver r ∧ ∃ name ∈ destinationNames req,
    trimSpace name = destinationNoMatchSentinel

def EastWestDeviates : Prop :=
  LateralServiceCovers tenant resolver r req ∧ LateralRiskCovers r req ∧
    ((LateralSourceSentinelHit tenant resolver r req ∧
        (LateralDestinationCovers tenant resolver r req ∨ LateralDestinationSentinelHit tenant resolver r req)) ∨
      (LateralSourceCovers tenant resolver r req ∧ LateralDestinationSentinelHit tenant resolver r req))

end Meaning

theorem selectorHits_iff {selector candidates : List String} :
    selectorHits selector candidates = true ↔
      ∃ s ∈ selector, ∃ c ∈ candidates, trimSpace s ≠ "" ∧ trimSpace s = trimSpace c := by
  simp only [selectorHits,List.any_eq_true,Bool.and_eq_true,decide_eq_true_eq,beq_iff_eq]
  constructor
  · rintro ⟨s, hs, hne, c, hc, heq⟩
    exact ⟨s,hs,c,hc,hne,heq⟩
  · rintro ⟨s, hs, c, hc, hne, heq⟩
    exact ⟨s,hs,hne,c,hc,heq⟩

variable {subjects tokens : List String}

theorem compiledSelector_eq_nil {sentinel : String} :
    compiledSelector subjects tokens sentinel = [] ↔ isAnySubject subjects = true := by
  unfold compiledSelector
  split_ifs with hany htokens
  · simp [hany]
  · simp [hany]
  · simp [hany,htokens]

theorem mem_compiledSelector {sentinel s : String} (hany : isAnySubject subjects = false) :
    s ∈ compiledSelector subjects tokens sentinel ↔ s ∈ tokens ∨ (tokens = [] ∧ s = sentinel) := by
  unfold compiledSelector
  simp only [hany,Bool.false_eq_true,if_false]
  split_ifs with htokens
  · simp [htokens]
  · simp [htokens]

variable {tenant : String} {resolver : EastWestResolver} {r : Rule} {req : DecisionRequest}

theorem sourceMatches_eastWestRuleOf :
    (eastWestRuleOf tenant resolver r).sourceMatches req = true ↔
      LateralSourceCovers tenant resolver r req ∨ LateralSourceSentinelHit tenant resolver r req := by
  have hself : trimSpace (authoritativeDeviceIdentity req) = authoritativeDeviceIdentity req := by
    unfold authoritativeDeviceIdentity
    split_ifs <;> exact trimSpace_trimSpace _
  have hsentinel : trimSpace sourceNoMatchSentinel = sourceNoMatchSentinel ∧ sourceNoMatchSentinel ≠ "" := by
    decide +kernel
  unfold LateralSourceCovers LateralSourceSentinelHit SourceUnresolved EastWestRule.sourceMatches
  simp only [eastWestRuleOf,compiledSelector_eq_nil,true_and,ne_eq,not_true_eq_false,decide_false,Bool.false_and,
    Bool.false_or]
  by_cases hany : isAnySubject r.source = true
  · simp [hany]
  have hne : compiledSelector r.source (resolver.sourceDeviceTokens tenant r.source) sourceNoMatchSentinel ≠ [] :=
    fun h => hany (compiledSelector_eq_nil.mp h)
  rw [Bool.not_eq_true] at hany
  simp only [hany,Bool.false_eq_true,if_false,not_false_eq_true,decide_true,Bool.true_and,false_or,true_and,
    eastWestSelectorMatches,List.isEmpty_eq_false_iff.mpr hne,Bool.false_or,selectorHits_iff,List.mem_singleton,
    mem_compiledSelector hany,exists_eq_left,hself,List.mem_map]
  constructor
  · rintro ⟨s, hs | ⟨hnil, rfl⟩, hblank, heq⟩
    · exact .inl ⟨heq ▸ hblank,s,hs,heq⟩
    · exact .inr ⟨hnil,heq.symm.trans hsentinel.1⟩
  rintro (⟨hblank, s, hs, heq⟩ | ⟨hnil, heq⟩)
  · exact ⟨s,.inl hs,heq ▸ hblank,heq⟩
  · exact ⟨_,.inr ⟨hnil,rfl⟩,hsentinel.1 ▸ hsentinel.2,hsentinel.1.trans heq.symm⟩

theorem sameAddress_sentinel (name : String) : sameAddress destinationNoMatchSentinel name = false := by
  have hparse : Addr.parse (trimSpace destinationNoMatchSentinel) = none := by decide +kernel
  simp [sameAddress,hparse]

theorem destinationMatches_eastWestRuleOf :
    eastWestDestinationMatches (eastWestRuleOf tenant resolver r).destinations (destinationNames req) = true ↔
      LateralDestinationCovers tenant resolver r req ∨ LateralDestinationSentinelHit tenant resolver r req := by
  have hsentinel : trimSpace destinationNoMatchSentinel = destinationNoMatchSentinel ∧
      destinationNoMatchSentinel ≠ "" := by decide +kernel
  unfold LateralDestinationCovers LateralDestinationSentinelHit DestinationUnresolved
  simp only [eastWestRuleOf]
  by_cases hany : isAnySubject r.destination = true
  · have hnil := (@compiledSelector_eq_nil _ (resolver.destinationTokens tenant r.destination)
      destinationNoMatchSentinel).mpr hany
    simp [eastWestDestinationMatches,eastWestSelectorMatches,hnil,hany]
  have hne := mt (@compiledSelector_eq_nil _ (resolver.destinationTokens tenant r.destination)
    destinationNoMatchSentinel).mp hany
  rw [Bool.not_eq_true] at hany
  simp only [eastWestDestinationMatches,eastWestSelectorMatches,List.isEmpty_eq_false_iff.mpr hne,Bool.false_or,
    Bool.or_eq_true,selectorHits_iff,List.any_eq_true,mem_compiledSelector hany,hany,Bool.false_eq_true,false_or,
    true_and]
  constructor
  · rintro (⟨s, hs | ⟨hnil, rfl⟩, c, hc, hblank, heq⟩ | ⟨s, hs | ⟨hnil, rfl⟩, c, hc, hsame⟩)
    · exact .inl ⟨s,hs,c,hc,.inl ⟨hblank,heq⟩⟩
    · exact .inr ⟨hnil,c,hc,heq.symm.trans hsentinel.1⟩
    · exact .inl ⟨s,hs,c,hc,.inr hsame⟩
    · rw [sameAddress_sentinel] at hsame
      cases hsame
  · rintro (⟨s, hs, c, hc, ⟨hblank, heq⟩ | hsame⟩ | ⟨hnil, c, hc, heq⟩)
    · exact .inl ⟨s,.inl hs,c,hc,hblank,heq⟩
    · exact .inr ⟨s,.inl hs,c,hc,hsame⟩
    · exact .inl ⟨_,.inr ⟨hnil,rfl⟩,c,hc,hsentinel.1.symm ▸ hsentinel.2,hsentinel.1.trans heq.symm⟩

theorem serviceMatches_eastWestRuleOf :
    (eastWestRuleOf tenant resolver r).serviceMatches req = true ↔ LateralServiceCovers tenant resolver r req := by
  unfold EastWestRule.serviceMatches LateralServiceCovers
  by_cases hs : r.serviceID = ""
  · simp [eastWestRuleOf,hs,eastWestSelectorMatches]
  simp only [eastWestRuleOf,hs,ne_eq,not_false_eq_true,if_true,false_or]
  cases (resolver.serviceTransportPorts tenant r.serviceID)[toLower (trimSpace req.protocol)]? with
  | none => simp
  | some ports =>
    simp only [Option.getD_some,List.any_eq_true,Bool.and_eq_true,beq_iff_eq,decide_eq_true_eq,Option.some.injEq,
      exists_eq_left']
    constructor
    · rintro ⟨port, hmem, rfl, hpos⟩
      exact ⟨hmem,hpos⟩
    · rintro ⟨hmem, hpos⟩
      exact ⟨_,hmem,rfl,hpos⟩

theorem riskMatches_eastWestRuleOf (hr : Normalized r) :
    eastWestSelectorMatches (eastWestRuleOf tenant resolver r).riskSeverities [req.riskStateSeverity] = true ↔
      LateralRiskCovers r req := by
  unfold LateralRiskCovers
  simp only [eastWestRuleOf,eastWestSelectorMatches]
  rcases hr.threshold with hnone | ⟨hne, hnorm, threshold, ht⟩
  · simp [hnone]
  have htrim : ∀ s ∈ riskSeveritiesAtLeast r.riskAtLeast, trimSpace s = s ∧ s ≠ "" := by
    intro s hs
    have hlevel := mem_severities ((mem_riskSeveritiesAtLeast ht hnorm).mp hs).choose_spec.1
    clear hs
    revert s
    decide +kernel
  simp only [List.isEmpty_eq_false_iff.mpr (riskSeveritiesAtLeast_ne_nil ht hnorm),Bool.false_or,selectorHits_iff,
    List.mem_singleton,exists_eq_left,hne,false_or,ht,Option.some.injEq]
  constructor
  · rintro ⟨s, hs, -, heq⟩
    rw [(htrim s hs).1] at heq
    obtain ⟨level, hlevel, hle⟩ := (mem_riskSeveritiesAtLeast ht hnorm).mp (heq ▸ hs)
    exact ⟨threshold,level,rfl,hlevel,hle⟩
  · rintro ⟨_, level, rfl, hlevel, hle⟩
    have hmem := (mem_riskSeveritiesAtLeast ht hnorm).mpr ⟨level,hlevel,hle⟩
    exact ⟨_,hmem,(htrim _ hmem).1.symm ▸ (htrim _ hmem).2,(htrim _ hmem).1⟩

theorem matchesRequest_eastWestRuleOf (hr : Normalized r) :
    (eastWestRuleOf tenant resolver r).matchesRequest req = true ↔
      (LateralSourceCovers tenant resolver r req ∨ LateralSourceSentinelHit tenant resolver r req) ∧
        (LateralDestinationCovers tenant resolver r req ∨ LateralDestinationSentinelHit tenant resolver r req) ∧
        LateralServiceCovers tenant resolver r req ∧ LateralRiskCovers r req := by
  have hdest := @destinationMatches_eastWestRuleOf tenant resolver r req
  unfold destinationNames at hdest
  rw [EastWestRule.matchesRequest,Bool.and_eq_true,Bool.and_eq_true,Bool.and_eq_true,sourceMatches_eastWestRuleOf,
    hdest,serviceMatches_eastWestRuleOf,riskMatches_eastWestRuleOf hr,and_assoc,and_assoc]

theorem SourceUnresolved.not_covers (h : SourceUnresolved tenant resolver r) :
    ¬ LateralSourceCovers tenant resolver r req := by
  obtain ⟨hany, hnil⟩ := h
  simp [LateralSourceCovers,hany,hnil]

theorem DestinationUnresolved.not_covers (h : DestinationUnresolved tenant resolver r) :
    ¬ LateralDestinationCovers tenant resolver r req := by
  obtain ⟨hany, hnil⟩ := h
  simp [LateralDestinationCovers,hany,hnil]

theorem ServiceUnresolved.not_covers (h : ServiceUnresolved tenant resolver r) :
    ¬ LateralServiceCovers tenant resolver r req := by
  obtain ⟨hid, hnil⟩ := h
  simp [LateralServiceCovers,hid,hnil]

/-- A compiled rule matches what the authored rule covers, and nothing at all when a subject or the service did
not resolve, exactly when the request carries no stand-in that the rest of the rule lets through. -/
theorem compileEastWest_iff_covers (tenant : String) (resolver : EastWestResolver) (req : DecisionRequest)
    {rules : List Rule} (hrules : ∀ r ∈ rules, Normalized r) (hmem : r ∈ rules)
    (hcompiles : compilesEastWest tenant r = true) :
    eastWestRuleOf tenant resolver r ∈ compileEastWest tenant rules resolver ∧
      ((((eastWestRuleOf tenant resolver r).matchesRequest req = true ↔ EastWestCovers tenant resolver r req) ∧
          (SourceUnresolved tenant resolver r ∨ DestinationUnresolved tenant resolver r ∨
              ServiceUnresolved tenant resolver r →
            (eastWestRuleOf tenant resolver r).matchesRequest req = false)) ↔
        ¬ EastWestDeviates tenant resolver r req) := by
  refine ⟨List.mem_map_of_mem (List.mem_filter.mpr ⟨hmem,hcompiles⟩),?_⟩
  rw [← Bool.not_eq_true,matchesRequest_eastWestRuleOf (hrules r hmem)]
  unfold EastWestCovers EastWestDeviates
  have hsource := @SourceUnresolved.not_covers tenant resolver r req
  have hdest := @DestinationUnresolved.not_covers tenant resolver r req
  have hservice := @ServiceUnresolved.not_covers tenant resolver r req
  have hsourceHit : LateralSourceSentinelHit tenant resolver r req → SourceUnresolved tenant resolver r := And.left
  have hdestHit : LateralDestinationSentinelHit tenant resolver r req → DestinationUnresolved tenant resolver r :=
    And.left
  grind

def emptyCatalog : EastWestResolver where
  sourceDeviceTokens _ _ := []
  destinationTokens _ _ := []
  serviceTransportPorts _ _ := ∅

def lateralRule : Rule where
  id := "r1"
  tenantID := "t1"
  plane := "east_west"
  direction := "outbound"
  source := ["laptop"]
  destination := ["*"]
  action := { access := "allow", inspection := "inspect" }
  status := "active"
  stage := "enforce"

theorem compileEastWest_iff_covers_laptop :
    (eastWestRuleOf "t1" emptyCatalog lateralRule).matchesRequest { tenantID := "t1", deviceID := "laptop" } = false := by
  have h := compileEastWest_iff_covers "t1" emptyCatalog { tenantID := "t1", deviceID := "laptop" }
    (show ∀ r ∈ [lateralRule], Normalized r by decide +kernel) (List.mem_singleton_self _) (by decide +kernel)
  refine (h.2.mpr ?_).2 (.inl (by unfold SourceUnresolved; decide +kernel))
  rintro ⟨-, -, ⟨⟨-, hid⟩, -⟩ | ⟨hcov, -⟩⟩
  · revert hid
    decide +kernel
  revert hcov
  unfold LateralSourceCovers
  decide +kernel

/-- An allow rule whose source resolved to nothing matches a request that claims the stand-in as its device. -/
theorem compileEastWest_matches_sentinel :
    Normalized lateralRule ∧ SourceUnresolved "t1" emptyCatalog lateralRule ∧
      ∃ rule ∈ compileEastWest "t1" [lateralRule] emptyCatalog,
        rule.matchesRequest { tenantID := "t1", deviceID := sourceNoMatchSentinel } = true := by
  refine ⟨by decide +kernel,by unfold SourceUnresolved; decide +kernel,?_⟩
  decide +kernel

end DsseCore.PolicyRule
