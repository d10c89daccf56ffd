import DsseCore.PolicyRule.EgressParts

/-!
# Compiling an egress rule keeps its meaning

The policies of a rule match what the rule covers, except where a request carries one of the two texts that stand
for an unresolved subject, or dials an address the rule spells in another way.
-/

namespace DsseCore.PolicyRule

open Go Model Decision List

section Assembly

variable {now : Time} {req : DecisionRequest} {actorType tenant : String} {resolver : EgressResolver} {r : Rule}
  {source transport c : Conditions} {sources transports : List Conditions}

theorem nodup_keys {host risk : Conditions} {h s : String} (hhost : (host.map Prod.fst).Sublist [h])
    (hh : h ∈ ["fqdn","sni"]) (hsource : (source.map Prod.fst).Sublist [s])
    (hs : s ∈ ["device_id","user_groups","user_id","actor_nhi_id"])
    (htransport : (transport.map Prod.fst).Sublist ["protocol","destination_port"])
    (hrisk : (risk.map Prod.fst).Sublist ["risk_state_severity"]) :
    ((host ++ source ++ transport ++ risk).map Prod.fst).Nodup := by
  have hsub := ((hhost.append hsource).append htransport).append hrisk
  simp only [← map_append] at hsub
  refine hsub.nodup ?_
  simp only [mem_cons,not_mem_nil,or_false] at hh hs
  rcases hh with rfl | rfl <;> rcases hs with rfl | rfl | rfl | rfl <;> decide

theorem hostConditions_keys {c : String × Conditions} (h : c ∈ hostConditions tenant r.destination resolver) :
    ∃ k ∈ ["fqdn","sni"], (c.2.map Prod.fst).Sublist [k] := by
  unfold hostConditions at h
  split at h
  · rw [mem_singleton.mp h]
    exact ⟨"fqdn",by simp,by simp⟩
  simp only at h
  split at h
  · rw [mem_singleton.mp h]
    exact ⟨"fqdn",by simp,by simp⟩
  obtain ⟨e, -, he⟩ := mem_flatMap.mp h
  simp only [addressConditions,mem_cons,not_mem_nil,or_false] at he
  rcases he with rfl | rfl
  · exact ⟨"fqdn",by simp,by simp⟩
  · exact ⟨"sni",by simp,by simp⟩

theorem sourceCondition_keys {present values : List String} {key : String}
    (h : c ∈ sourceCondition present key values) : (c.map Prod.fst).Sublist [key] := by
  unfold sourceCondition at h
  split at h
  · cases h
  · rw [mem_singleton.mp h]
    simp

theorem sourceConditions_keys (h : c ∈ sourceConditions tenant r.source resolver) :
    ∃ k ∈ ["device_id","user_groups","user_id","actor_nhi_id"], (c.map Prod.fst).Sublist [k] := by
  unfold sourceConditions at h
  split at h
  · rw [mem_singleton.mp h]
    exact ⟨"device_id",by simp,by simp⟩
  simp only at h
  split at h
  · rw [mem_singleton.mp h]
    exact ⟨"device_id",by simp,by simp⟩
  simp only [mem_append] at h
  rcases h with ((h | h) | h) | h
  all_goals exact ⟨_,by simp,sourceCondition_keys h⟩

theorem ruleTransports_keys (h : c ∈ ruleTransports tenant r resolver) :
    (c.map Prod.fst).Sublist ["protocol","destination_port"] := by
  unfold ruleTransports egressServiceConditions at h
  by_cases hs : r.serviceID = ""
  · simp_all
  simp only [hs,if_false] at h
  cases ht : resolvedTransports tenant r.serviceID resolver with
  | none =>
    simp only [ht] at h
    split at h <;> simp_all
  | some transports =>
    simp only [ht] at h
    obtain ⟨protocol, -, hsome⟩ := mem_filterMap.mp h
    simp only at hsome
    split at hsome
    · cases hsome
    · cases hsome
      simp

theorem policyMatches_egressPolicy (ht : trimSpace req.tenantID = trimSpace tenant) {decision suffix : String}
    {conds : Conditions} (hc : (conds.map Prod.fst).Nodup) :
    policyMatches now req actorType (egressPolicy tenant r decision suffix conds) = true ↔
      Holds now req actorType conds := by
  have htenant : policyTenantAppliesTo (egressPolicy tenant r decision suffix conds) req = true := by
    simp [policyTenantAppliesTo,egressPolicy,ht]
  have hconds : (egressPolicy tenant r decision suffix conds).conditions = Map.ofEntries conds := rfl
  have hstatus : (egressPolicy tenant r decision suffix conds).status = "active" := rfl
  rw [policyMatches_iff,conditionsMatch_iff,hconds]
  simp only [htenant,hstatus,true_and,Map.getElem?_ofEntries hc,Holds,Prod.forall]

theorem mem_appendPolicy {decision : String} {host : String × Conditions} {p : Policy}
    (h : p ∈ appendPolicy tenant r decision sources transports host) :
    ∃ source ∈ sources, ∃ transport ∈ transports, ∃ suffix,
      p = egressPolicy tenant r decision suffix (host.2 ++ source ++ transport ++ riskConditions r.riskAtLeast) := by
  obtain ⟨⟨source, si⟩, hs, h⟩ := mem_flatMap.mp h
  obtain ⟨transport, ht, rfl⟩ := mem_map.mp h
  exact ⟨source,mem_of_getElem? (mk_mem_zipIdx_iff_getElem?.mp hs),transport,ht,_,rfl⟩

theorem egressPolicy_mem_appendPolicy (tenant : String) (r : Rule) (decision : String) (host : String × Conditions)
    (hs : source ∈ sources) (ht : transport ∈ transports) :
    ∃ suffix, egressPolicy tenant r decision suffix (host.2 ++ source ++ transport ++ riskConditions r.riskAtLeast) ∈
      appendPolicy tenant r decision sources transports host := by
  obtain ⟨si, hsi, rfl⟩ := mem_iff_getElem.mp hs
  have hidx := mk_mem_zipIdx_iff_getElem?.mpr (getElem?_eq_getElem hsi)
  exact ⟨_,mem_flatMap.mpr ⟨_,hidx,mem_map.mpr ⟨transport,ht,rfl⟩⟩⟩

theorem exists_compileEgressRule (ht : trimSpace req.tenantID = trimSpace tenant) (hown : r.tenantID = tenant)
    (hplane : r.plane = "egress") (hstatus : r.status = "active")
    (haccess : r.action.access ∈ ["allow","authenticate","deny"]) :
    (∃ p ∈ compileEgressRule tenant resolver r, policyMatches now req actorType p = true) ↔
      (∃ c ∈ hostConditions tenant r.destination resolver, Holds now req actorType c.2) ∧
        (∃ c ∈ sourceConditions tenant r.source resolver, Holds now req actorType c) ∧
        (∃ c ∈ ruleTransports tenant r resolver, Holds now req actorType c) ∧
        Holds now req actorType (riskConditions r.riskAtLeast) := by
  obtain ⟨decision, hd⟩ : ∃ decision, egressDecision r.action.access = some decision := by
    simp only [mem_cons,not_mem_nil,or_false] at haccess
    rcases haccess with h | h | h <;> rw [h] <;> exact ⟨_,rfl⟩
  have hrule : compileEgressRule tenant resolver r = (hostConditions tenant r.destination resolver).flatMap
      (appendPolicy tenant r decision (sourceConditions tenant r.source resolver)
        (ruleTransports tenant r resolver)) := by
    simp [compileEgressRule,hown,hplane,hstatus,hd]
  -- the keys of the parts are apart, so a policy matches when each of its parts holds
  have hpolicy : ∀ host ∈ hostConditions tenant r.destination resolver,
      ∀ source ∈ sourceConditions tenant r.source resolver, ∀ transport ∈ ruleTransports tenant r resolver,
      ∀ suffix, policyMatches now req actorType (egressPolicy tenant r decision suffix
          (host.2 ++ source ++ transport ++ riskConditions r.riskAtLeast)) = true ↔
        ((Holds now req actorType host.2 ∧ Holds now req actorType source) ∧ Holds now req actorType transport) ∧
          Holds now req actorType (riskConditions r.riskAtLeast) := by
    intro host hhost source hsource transport htransport suffix
    obtain ⟨h, hh, hhk⟩ := hostConditions_keys hhost
    obtain ⟨s, hs, hsk⟩ := sourceConditions_keys hsource
    rw [policyMatches_egressPolicy ht
      (nodup_keys hhk hh hsk hs (ruleTransports_keys htransport) (by unfold riskConditions; simp only; split <;> simp)),
      holds_append,holds_append,holds_append]
  rw [hrule]
  constructor
  · rintro ⟨p, hp, hm⟩
    obtain ⟨host, hhost, hp⟩ := mem_flatMap.mp hp
    obtain ⟨source, hsource, transport, htransport, suffix, rfl⟩ := mem_appendPolicy hp
    obtain ⟨⟨⟨h₁, h₂⟩, h₃⟩, h₄⟩ := (hpolicy host hhost source hsource transport htransport suffix).mp hm
    exact ⟨⟨host,hhost,h₁⟩,⟨source,hsource,h₂⟩,⟨transport,htransport,h₃⟩,h₄⟩
  · rintro ⟨⟨host, hhost, h₁⟩, ⟨source, hsource, h₂⟩, ⟨transport, htransport, h₃⟩, h₄⟩
    obtain ⟨suffix, hmem⟩ := egressPolicy_mem_appendPolicy tenant r decision host hsource htransport
    exact ⟨_,mem_flatMap.mpr ⟨host,hhost,hmem⟩,
      (hpolicy host hhost source hsource transport htransport suffix).mpr ⟨⟨⟨h₁,h₂⟩,h₃⟩,h₄⟩⟩

end Assembly

section Refinement

/-- The request is covered by text alone, or misses an address only by its spelling. -/
def EgressDeviates (tenant : String) (r : Rule) (resolver : EgressResolver) (req : DecisionRequest) : Prop :=
  TransportCovers tenant r resolver req ∧ RiskCovers r req ∧
    ((SourceSentinelHit tenant r resolver req ∧ ¬ SourceCovers tenant r resolver req ∧
        (DestinationWritten tenant r resolver req ∨ DestinationSentinelHit tenant r resolver req)) ∨
      (SourceCovers tenant r resolver req ∧ DestinationSentinelHit tenant r resolver req) ∨
      (SourceCovers tenant r resolver req ∧ DestinationCovers tenant r resolver req ∧
        ¬ DestinationWritten tenant r resolver req))

variable {tenant : String} {r : Rule} {resolver : EgressResolver} {req : DecisionRequest}

theorem DestinationWritten.covers (h : DestinationWritten tenant r resolver req) :
    DestinationCovers tenant r resolver req :=
  h.imp id fun ⟨addr, hmem, hcov⟩ => ⟨addr,hmem,.inl hcov⟩

theorem DestinationSentinelHit.not_covers (h : DestinationSentinelHit tenant r resolver req) :
    ¬ DestinationCovers tenant r resolver req := by
  obtain ⟨hany, hnil, -⟩ := h
  rintro (h | ⟨addr, hmem, -⟩)
  · rw [hany] at h
    cases h
  · rw [hnil] at hmem
    cases hmem

/-- Some policy of a stored, active egress rule matches a request of its tenant exactly when the rule covers the
request, unless the request deviates in one of the three ways. -/
theorem compileEgressPolicies_iff_covers (now : Time) (actorType : String) (hr : Normalized r)
    (hplane : r.plane = "egress") (hstatus : r.status = "active") (hown : r.tenantID = tenant)
    (hreq : trimSpace req.tenantID = tenant) :
    ((∃ p ∈ compileEgressPolicies tenant [r] resolver, policyMatches now req actorType p = true) ↔
        EgressCovers tenant r resolver req) ↔
      ¬ EgressDeviates tenant r resolver req := by
  have htenant : trimSpace req.tenantID = trimSpace tenant := by rw [hreq,← hown,hr.tenantID_trimmed]
  have hcompile : compileEgressPolicies tenant [r] resolver = compileEgressRule tenant resolver r := by
    simp [compileEgressPolicies]
  have hsource : r.source ≠ [] := (normalizeAndValidate_ok hr).2.2.2.2.1
  rw [hcompile,exists_compileEgressRule htenant hown hplane hstatus hr.access,exists_hostConditions,
    exists_sourceConditions hsource,exists_ruleTransports,holds_riskConditions hr]
  unfold EgressCovers EgressDeviates
  have hwritten := @DestinationWritten.covers tenant r resolver req
  have hhit := @DestinationSentinelHit.not_covers tenant r resolver req
  -- what is left is propositional in the six parts
  generalize SourceCovers tenant r resolver req = A at *
  generalize DestinationCovers tenant r resolver req = B at *
  generalize TransportCovers tenant r resolver req = C at *
  generalize RiskCovers r req = D at *
  generalize SourceSentinelHit tenant r resolver req = S at *
  generalize DestinationSentinelHit tenant r resolver req = T at *
  generalize DestinationWritten tenant r resolver req = W at *
  grind

/-- A catalog whose one endpoint has an address written in capitals and which knows no device. -/
def unresolvedCatalog : EgressResolver where
  sourceDeviceTokens _ _ := []
  endpointAddresses _ _ := ["2001:DB8::1"]
  serviceTransportPorts := none

def authoredRule (source destination : List String) : Rule where
  id := "r1"
  tenantID := "t1"
  plane := "egress"
  source := source
  destination := destination
  action := { access := "deny", inspection := "inspect" }
  status := "active"
  stage := "enforce"

theorem compileEgressPolicies_iff_covers_server :
    (∃ p ∈ compileEgressPolicies "t1" [authoredRule ["*"] ["server"]] unresolvedCatalog,
      policyMatches 0 { tenantID := "t1", destination := "2001:db8::2" } "human" p = true) ↔
    EgressCovers "t1" (authoredRule ["*"] ["server"]) unresolvedCatalog
      { tenantID := "t1", destination := "2001:db8::2" } := by
  refine (compileEgressPolicies_iff_covers 0 "human" (by decide +kernel) rfl rfl rfl rfl).mpr ?_
  rintro ⟨-, -, ⟨⟨hany, -⟩, -⟩ | ⟨-, -, hnil, -⟩ | ⟨-, hcov, -⟩⟩
  · revert hany
    decide
  · revert hnil
    decide +kernel
  revert hcov
  unfold DestinationCovers
  decide +kernel

/-- A request that carries the stand-in of an unresolved source is matched although the rule does not cover it,
and a request to the authored address is missed when it is written in lower case. -/
theorem compileEgressPolicies_not_covers :
    (Normalized (authoredRule ["laptop"] ["*"]) ∧
      (∃ p ∈ compileEgressPolicies "t1" [authoredRule ["laptop"] ["*"]] unresolvedCatalog,
        policyMatches 0 { tenantID := "t1", deviceID := sourceNoMatchSentinel } "human" p = true) ∧
      ¬ EgressCovers "t1" (authoredRule ["laptop"] ["*"]) unresolvedCatalog
        { tenantID := "t1", deviceID := sourceNoMatchSentinel }) ∧
    (Normalized (authoredRule ["*"] ["server"]) ∧
      (¬ ∃ p ∈ compileEgressPolicies "t1" [authoredRule ["*"] ["server"]] unresolvedCatalog,
        policyMatches 0 { tenantID := "t1", destination := "2001:db8::1" } "human" p = true) ∧
      EgressCovers "t1" (authoredRule ["*"] ["server"]) unresolvedCatalog
        { tenantID := "t1", destination := "2001:db8::1" }) := by
  refine ⟨⟨?_,?_,?_⟩,?_,?_,?_⟩
  · decide +kernel
  · decide +kernel
  · rintro ⟨hsource, -⟩
    revert hsource
    unfold SourceCovers
    decide +kernel
  · decide +kernel
  · decide +kernel
  · refine ⟨.inl (by decide),.inr ⟨"2001:DB8::1",by decide +kernel,.inr (by decide +kernel)⟩,.inl rfl,.inl rfl⟩

end Refinement

end DsseCore.PolicyRule
