import DsseCore.PolicyRule.EgressMeaning

/-!
# The four parts of a compiled egress rule

Source, destination, transport and risk, each against its part of the authored meaning.
-/

namespace DsseCore.PolicyRule

open Go Model Decision List

variable {r : Rule} {ports : List Int} {now : Time} {req : DecisionRequest} {actorType tenant : String}
  {resolver : EgressResolver} {values source actual : List String} {transports : Map (List Int)}

theorem exists_sourceCondition {present : List String} {key : String} (hkey : isHostnameConditionKey key = false) :
    (∃ c ∈ sourceCondition present key values, Holds now req actorType c) ↔
      present ≠ [] ∧ ∃ v ∈ fieldValues now req actorType key, v ∈ values := by
  unfold sourceCondition
  split_ifs with h
  · simp [h]
  · simp [h,matchCondition_plain hkey,conditionMatches_strings]

theorem prefixedToken_ne {mark id token : String} (h : prefixedToken mark id = some token) : token ≠ "" := by
  unfold prefixedToken at h
  simp only at h
  split_ifs at h with h₁ h₂
  rwa [← Option.some.inj h]

theorem source_eq_nil (hd : deviceIDs source = []) (hg : identityGroups source = []) (hu : identityUsers source = [])
    (ha : agentIDs source = []) : source = [] := by
  rw [eq_nil_iff_forall_not_mem]
  intro s hs
  have hgs : (identityGroupToken s).isNone := by
    simpa using filterMap_eq_nil_iff.mp hg s hs
  have hus : (identityUserToken s).isNone := by
    simpa using filterMap_eq_nil_iff.mp hu s (mem_filter.mpr ⟨hs,hgs⟩)
  have has : (agentToken s).isNone := by
    simpa using filterMap_eq_nil_iff.mp ha s (mem_filter.mpr ⟨hs,by simp only [hgs,hus,Bool.and_self]⟩)
  have hds : s ∈ deviceIDs source := mem_filter.mpr ⟨hs,by simp only [hgs,hus,has,Bool.and_self]⟩
  rw [hd] at hds
  exact not_mem_nil hds

theorem deviceCondition_iff :
    (deviceIDs r.source ≠ [] ∧ ∃ v ∈ singleValue req.deviceID, v ∈ deviceValues tenant r.source resolver) ↔
      (req.deviceID ≠ "" ∧ req.deviceID ∈ resolvedDevices tenant r resolver) ∨
        (deviceIDs r.source ≠ [] ∧ resolvedDevices tenant r resolver = [] ∧
          req.deviceID = sourceNoMatchSentinel) := by
  have hs : sourceNoMatchSentinel ≠ "" := by decide
  unfold deviceValues resolvedDevices
  by_cases hd : deviceIDs r.source = []
  · simp [hd]
  generalize resolver.sourceDeviceTokens tenant (deviceIDs r.source) = tokens
  by_cases ht : tokens = []
  · simp only [hd,ht,ne_eq,not_false_eq_true,true_and,if_true,if_false,mem_singleton,mem_singleValue,
      not_mem_nil,and_false,false_or]
    constructor
    · rintro ⟨v, ⟨rfl, -⟩, hv⟩
      exact hv
    · intro hv
      exact ⟨_,⟨rfl,hv ▸ hs⟩,hv⟩
  · simp only [hd,ht,ne_eq,not_false_eq_true,true_and,if_false,mem_singleValue,false_and,or_false]
    constructor
    · rintro ⟨v, ⟨rfl, hne⟩, hv⟩
      exact ⟨hne,hv⟩
    · rintro ⟨hne, hv⟩
      exact ⟨_,⟨rfl,hne⟩,hv⟩

theorem agentCondition_iff : (agentIDs source ≠ [] ∧ ∃ v ∈ singleValue req.actorNHIID, v ∈ agentIDs source) ↔
      req.actorNHIID ∈ agentIDs source := by
  constructor
  · rintro ⟨-, v, hv, hmem⟩
    rwa [(mem_singleValue.mp hv).1] at hmem
  intro hmem
  obtain ⟨id, -, hid⟩ := mem_filterMap.mp hmem
  exact ⟨ne_nil_of_mem hmem,_,mem_singleValue.mpr ⟨rfl,prefixedToken_ne hid⟩,hmem⟩

theorem ne_nil_and_exists : (values ≠ [] ∧ ∃ v ∈ actual, v ∈ values) ↔ ∃ v ∈ actual, v ∈ values :=
  ⟨And.right,fun h => ⟨ne_nil_of_mem h.choose_spec.2,h⟩⟩

theorem exists_sourceConditions (hr : r.source ≠ []) :
    (∃ c ∈ sourceConditions tenant r.source resolver, Holds now req actorType c) ↔
      SourceCovers tenant r resolver req ∨ SourceSentinelHit tenant r resolver req := by
  unfold sourceConditions SourceCovers SourceSentinelHit
  by_cases hany : isAnySubject r.source = true
  · simp [hany]
  simp only [hany,Bool.false_eq_true,if_false,false_or,true_and]
  rw [if_neg]
  · simp only [mem_append,or_and_right,exists_or]
    rw [exists_sourceCondition (by decide),exists_sourceCondition (by decide),
      exists_sourceCondition (by decide),exists_sourceCondition (by decide),
      fieldValues_device_id,fieldValues_user_groups,fieldValues_user_id,fieldValues_actor_nhi_id,
      deviceCondition_iff,agentCondition_iff,ne_nil_and_exists,ne_nil_and_exists]
    simp only [or_assoc,or_comm,or_left_comm]
  · -- a rule with selectors has a restriction of some kind
    intro hnil
    simp only [append_eq_nil_iff,sourceCondition,ite_eq_left_iff,cons_ne_nil,imp_false,not_not] at hnil
    exact hr (source_eq_nil hnil.1.1.1 hnil.1.1.2 hnil.1.2 hnil.2)

theorem hostCovers_sentinel {host : String} :
    hostCovers host destinationNoMatchSentinel = true ↔ trimSpace (toLower host) = destinationNoMatchSentinel := by
  have hnorm : trimSpace (toLower destinationNoMatchSentinel) = destinationNoMatchSentinel := by decide +kernel
  have hne : destinationNoMatchSentinel ≠ "" := by decide
  have hstar : hasPrefix destinationNoMatchSentinel "*." = false := by decide +kernel
  have hempty : trimSpace (toLower "") = "" := by decide
  simp only [hostCovers,hostMatchesPattern,hnorm,hstar,hne,or_false,Bool.false_eq_true]
  by_cases hhost : host = ""
  · simp [hhost,hempty,hne.symm]
  by_cases hblank : trimSpace (toLower host) = ""
  · have hs : host ≠ destinationNoMatchSentinel := by
      rintro rfl
      exact hne (hnorm.symm.trans hblank)
    simp [hblank,hs,hne.symm]
  · simp only [hblank,if_false,ne_eq,hhost,not_false_eq_true,decide_true,Bool.true_and,Bool.or_eq_true,beq_iff_eq]
    constructor
    · rintro (rfl | h)
      · exact hnorm
      · exact h
    · exact .inr

theorem literalCovers_sentinel (destination : String) :
    literalCovers destination destinationNoMatchSentinel = false := by
  have hcut : Prefix.parse destinationNoMatchSentinel = none := by decide +kernel
  unfold literalCovers
  cases hd : Addr.parse (trimSpace destination) with
  | none => rfl
  | some dialled =>
    have hself : destinationNoMatchSentinel ≠ trimSpace destination := by
      intro h
      rw [← h] at hd
      cases hd
    have htext : destinationNoMatchSentinel ≠ dialled.unmap.text := by
      intro h
      have hsep := dialled.unmap.text_separator
      rw [← h] at hsep
      revert hsep
      decide
    have hcidr : cidrContains destinationNoMatchSentinel (trimSpace destination) = false := by
      simp [cidrContains,hcut]
    simp [hself,htext,hcidr]

theorem matchCondition_fqdn (addr : String) :
    matchCondition now req actorType "fqdn" (.str addr) =
      (hostCovers req.fqdn addr || literalCovers req.destination addr) :=
  matchCondition_host (by decide) rfl addr

theorem matchCondition_sni (addr : String) :
    matchCondition now req actorType "sni" (.str addr) =
      (hostCovers req.sni addr || literalCovers req.destination addr) :=
  matchCondition_host (by decide) rfl addr

theorem exists_addressConditions {e : String × ℕ} :
    (∃ c ∈ addressConditions e, Holds now req actorType c.2) ↔ addressCovers req e.1 = true := by
  simp only [addressConditions,mem_cons,not_mem_nil,or_false,exists_eq_or_imp,exists_eq_left,holds_cons,
    holds_nil,and_true,matchCondition_fqdn,matchCondition_sni,addressCovers,Bool.or_eq_true]
  simp only [or_assoc,or_left_comm,or_self]

theorem mem_resolvedAddresses {addr : String} : addr ∈ resolvedAddresses tenant r resolver ↔
      ∃ i, (addr,i) ∈ (resolver.endpointAddresses tenant r.destination).zipIdx.filter fun e => trimSpace e.1 ≠ "" := by
  simp only [resolvedAddresses,mem_filter]
  constructor
  · rintro ⟨hmem, hblank⟩
    obtain ⟨i, hi, rfl⟩ := mem_iff_getElem.mp hmem
    exact ⟨i,mk_mem_zipIdx_iff_getElem?.mpr (getElem?_eq_getElem hi),hblank⟩
  · rintro ⟨i, hi, hblank⟩
    exact ⟨mem_of_getElem? (mk_mem_zipIdx_iff_getElem?.mp hi),hblank⟩

/-- The host conditions reach the addresses the destination resolves to, as they are written, and the host that
stands for no destination. -/
theorem exists_hostConditions : (∃ c ∈ hostConditions tenant r.destination resolver, Holds now req actorType c.2) ↔
      DestinationWritten tenant r resolver req ∨ DestinationSentinelHit tenant r resolver req := by
  unfold hostConditions DestinationWritten DestinationSentinelHit
  by_cases hany : isAnySubject r.destination = true
  · simp [hany]
  have haddr := fun addr => @mem_resolvedAddresses r tenant resolver addr
  simp only [hany,Bool.false_eq_true,if_false,false_or,true_and]
  generalize (resolver.endpointAddresses tenant r.destination).zipIdx.filter _ = addresses at haddr ⊢
  have hnil : resolvedAddresses tenant r resolver = [] ↔ addresses = [] := by
    simp only [eq_nil_iff_forall_not_mem,haddr,not_exists,Prod.forall]
  by_cases hempty : addresses = []
  · simp [hempty,hnil.mpr hempty,matchCondition_fqdn,hostCovers_sentinel,literalCovers_sentinel]
  simp only [hempty,hnil,if_false,mem_flatMap,false_and,or_false]
  constructor
  · rintro ⟨c, ⟨e, he, hc⟩, hholds⟩
    exact ⟨e.1,(haddr _).mpr ⟨e.2,he⟩,exists_addressConditions.mp ⟨c,hc,hholds⟩⟩
  rintro ⟨addr, hmem, hcov⟩
  obtain ⟨i, hi⟩ := (haddr _).mp hmem
  obtain ⟨c, hc, hholds⟩ := (exists_addressConditions (e := (addr,i))).mpr hcov
  exact ⟨c,⟨_,hi,hc⟩,hholds⟩

theorem mem_portSet {port : Int} : port ∈ portSet ports ↔ port ∈ ports := by
  simp [portSet]

theorem conditionMatches_portCondition :
    conditionMatches actual (portCondition ports) = true ↔ ∃ v ∈ actual, ∃ port ∈ ports, itoa port = v := by
  unfold portCondition
  split
  · by_cases h : actual = []
    · simp [conditionMatches,h]
    · simp [conditionMatches,h,anyActualEquals,Value.sprint]
  · simp [conditionMatches_list,Value.sprint]

theorem itoa_injective : Function.Injective itoa := fun _ _ h => Int.repr_injective h

theorem itoa_ne_empty (n : Int) : itoa n ≠ "" := by
  intro h
  have hlen := congrArg String.length h
  cases n <;> simp [itoa,Int.repr] at hlen

theorem holds_transport {protocol : String} (hp : protocol ≠ "") (hports : ∀ port ∈ ports, 1 ≤ port) :
    Holds now req actorType [("protocol",.str protocol),("destination_port",portCondition (portSet ports))] ↔
      req.protocol = protocol ∧ req.destinationPort ∈ ports := by
  simp only [holds_cons,holds_nil,and_true,matchCondition_plain (show isHostnameConditionKey "protocol" = false by decide),
    matchCondition_plain (show isHostnameConditionKey "destination_port" = false by decide),fieldValues_protocol,
    fieldValues_destination_port,conditionMatches_str,mem_singleValue,conditionMatches_portCondition,mem_portSet]
  refine and_congr ⟨fun h => h.1.symm,fun h => ⟨h.symm,h ▸ hp⟩⟩ ⟨?_,fun h => ?_⟩
  · rintro ⟨v, hv, port, hport, rfl⟩
    split_ifs at hv with hzero
    · cases hv
    · rwa [← itoa_injective (mem_singleValue.mp hv).1]
  · have hzero : req.destinationPort ≠ 0 := by
      have := hports _ h
      omega
    exact ⟨_,by rw [if_neg hzero]; exact mem_singleValue.mpr ⟨rfl,itoa_ne_empty _⟩,_,h,rfl⟩

theorem resolvedTransports_valid {serviceID : String}
    (h : resolvedTransports tenant serviceID resolver = some transports) {protocol : String}
    (hp : transports[protocol]? = some ports) :
    (protocol = "tcp" ∨ protocol = "udp") ∧ ports ≠ [] ∧ ∀ port ∈ ports, 1 ≤ port ∧ port ≤ 65535 := by
  unfold resolvedTransports at h
  split at h
  · cases h
  simp only at h
  split_ifs at h with hempty hvalid
  cases h
  have hv := all_eq_true.mp hvalid _ (Std.ExtTreeMap.mem_toList_iff_getElem?_eq_some.mpr hp)
  simpa [validTransport,and_assoc] using hv

theorem exists_transportConditions {serviceID : String}
    (h : resolvedTransports tenant serviceID resolver = some transports) :
    (∃ c ∈ transportConditions transports, Holds now req actorType c) ↔
      ∃ ports, transports[req.protocol]? = some ports ∧ req.destinationPort ∈ ports := by
  constructor
  · rintro ⟨c, hc, hholds⟩
    obtain ⟨protocol, hprot, hsome⟩ := mem_filterMap.mp hc
    simp only at hsome
    split_ifs at hsome with hports
    cases hsome
    cases hp : transports[protocol]? with
    | none => simp [hp,portSet] at hports
    | some ports =>
      obtain ⟨hname, -, hrange⟩ := resolvedTransports_valid h hp
      rw [hp,Option.getD_some,holds_transport (by rcases hname with rfl | rfl <;> decide)
        fun port hport => (hrange port hport).1] at hholds
      exact ⟨ports,hholds.1 ▸ hp,hholds.2⟩
  · rintro ⟨ports, hp, hport⟩
    obtain ⟨hname, hne, hrange⟩ := resolvedTransports_valid h hp
    refine ⟨[("protocol",.str req.protocol),("destination_port",portCondition (portSet ports))],?_,?_⟩
    · apply mem_filterMap.mpr
      refine ⟨req.protocol,by simpa using hname,?_⟩
      have hset : portSet ports ≠ [] := ne_nil_of_mem (mem_portSet.mpr hport)
      simp [hp,hset]
    · exact (holds_transport (by rcases hname with h | h <;> rw [h] <;> decide)
        fun port hmem => (hrange port hmem).1).mpr ⟨rfl,hport⟩

theorem exists_ruleTransports :
    (∃ c ∈ ruleTransports tenant r resolver, Holds now req actorType c) ↔ TransportCovers tenant r resolver req := by
  unfold ruleTransports egressServiceConditions TransportCovers
  by_cases hs : r.serviceID = ""
  · simp [hs]
  simp only [hs]
  cases ht : resolvedTransports tenant r.serviceID resolver with
  | none =>
    by_cases ha : r.action.access = "allow"
    · simp [ha,matchCondition_plain (show isHostnameConditionKey "protocol" = false by decide),
        conditionMatches_list]
    · simp [ha]
  | some transports => simpa using exists_transportConditions ht

theorem riskSeverityRank_empty : riskSeverityRank "" = none := by decide

theorem mem_severities {severity : String} {level : ℕ} (h : riskSeverityRank severity = some level) :
    severity ∈ ["low","medium","high","critical"] := by
  unfold riskSeverityRank at h
  split at h <;> simp_all

theorem mem_riskSeveritiesAtLeast {t : String} {threshold : ℕ} (ht : riskSeverityRank t = some threshold)
    (hnorm : t = toLower (trimSpace t)) {severity : String} :
    severity ∈ riskSeveritiesAtLeast t ↔ ∃ level, riskSeverityRank severity = some level ∧ threshold ≤ level := by
  have hthreshold : 1 ≤ threshold := by
    unfold riskSeverityRank at ht
    split at ht <;> cases ht <;> decide
  unfold riskSeveritiesAtLeast
  rw [← hnorm,ht]
  simp only [mem_filter,decide_eq_true_eq]
  constructor
  · rintro ⟨-, hle⟩
    cases hs : riskSeverityRank severity with
    | none =>
      rw [hs,Option.getD_none] at hle
      omega
    | some level => exact ⟨level,rfl,by simpa [hs] using hle⟩
  · rintro ⟨level, hs, hle⟩
    exact ⟨mem_severities hs,by simpa [hs] using hle⟩

theorem riskSeveritiesAtLeast_ne_nil {t : String} {threshold : ℕ} (ht : riskSeverityRank t = some threshold)
    (hnorm : t = toLower (trimSpace t)) : riskSeveritiesAtLeast t ≠ [] :=
  ne_nil_of_mem ((mem_riskSeveritiesAtLeast ht hnorm).mpr ⟨threshold,ht,le_rfl⟩)

@[simp]
theorem riskSeveritiesAtLeast_empty : riskSeveritiesAtLeast "" = [] := by decide

theorem Normalized.threshold (hr : Normalized r) :
    r.riskAtLeast = "" ∨ r.riskAtLeast ≠ "" ∧
      r.riskAtLeast = toLower (trimSpace r.riskAtLeast) ∧ ∃ t, riskSeverityRank r.riskAtLeast = some t := by
  rcases hr.riskAtLeast with hnone | ⟨hnorm, hrank⟩
  · exact .inl hnone
  · exact .inr ⟨fun h => hrank (h ▸ riskSeverityRank_empty),hnorm,Option.ne_none_iff_exists'.mp hrank⟩

theorem holds_riskConditions (hr : Normalized r) :
    Holds now req actorType (riskConditions r.riskAtLeast) ↔ RiskCovers r req := by
  unfold riskConditions RiskCovers
  rcases hr.threshold with hnone | ⟨hne, hnorm, threshold, ht⟩
  · simp [hnone]
  simp only [riskSeveritiesAtLeast_ne_nil ht hnorm,if_false,holds_cons,holds_nil,and_true,hne,false_or,ht,
    matchCondition_plain (show isHostnameConditionKey "risk_state_severity" = false by decide),
    fieldValues_risk_state_severity,conditionMatches_strings,mem_singleValue,
    mem_riskSeveritiesAtLeast ht hnorm]
  constructor
  · rintro ⟨v, ⟨rfl, -⟩, level, hs, hle⟩
    exact ⟨threshold,level,rfl,hs,hle⟩
  rintro ⟨_, level, ⟨⟩, hs, hle⟩
  refine ⟨_,⟨rfl,?_⟩,level,hs,hle⟩
  intro hempty
  rw [hempty] at hs
  cases hs

end DsseCore.PolicyRule
