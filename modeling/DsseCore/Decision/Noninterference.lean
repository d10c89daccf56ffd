import DsseCore.Decision.Evaluate

/-!
# Tenant noninterference

Two evaluators that differ only in what other tenants own should answer a tenant's request alike.  Every list of
the evaluator is filtered by ownership before it matters, with one exception: inspection profiles are looked up by
ID first and compared with the tenant afterwards, so another tenant's profile can hide one's own of the same ID.
-/

namespace DsseCore.Decision

open Go Model List Evaluator TLSInspectionReadinessContext

def visibleRecords {α : Type} (owner : α → String) (t : String) (records : List α) : List α :=
  records.filter fun r => !foreign t (owner r)

/-- The evaluator with everything removed that belongs to other tenants than `t`. -/
def Evaluator.visibleTo (e : Evaluator) (t : String) : Evaluator :=
  { e with
    policies := visibleRecords (·.tenantID) t e.policies
    policyBundle :=
      { e.policyBundle with
        saasCatalog := visibleRecords (·.tenantID) t e.policyBundle.saasCatalog
        swgTenantRestrictionRules := visibleRecords (·.tenantID) t e.policyBundle.swgTenantRestrictionRules
        dlpRules := visibleRecords (·.tenantID) t e.policyBundle.dlpRules
        swgTLSBypassRules := visibleRecords (·.tenantID) t e.policyBundle.swgTLSBypassRules
        tenantRootCAs := visibleRecords (·.tenantID) t e.policyBundle.tenantRootCAs
        trustProfiles := visibleRecords (·.tenantID) t e.policyBundle.trustProfiles
        inspectionProfiles := visibleRecords (·.tenantID) t e.policyBundle.inspectionProfiles } }

structure Observation where
  policyID : String
  outcome : Outcome
  inspection : InspectionFields

def observed (d : AccessDecision) : Observation where
  policyID := d.policyID
  outcome := ⟨d.decision,d.reasonCodes,d.actions⟩
  inspection := ⟨d.bypass,d.inspectionProfileID,d.inspectionMode,d.inspectionRouteCategory,
    d.inspectionExecutionScope⟩

/-- The first record that `p` accepts is foreign to `t`, although `p` accepts one that `t` may use. -/
def shadowed {α : Type} (owner : α → String) (t : String) (p : α → Bool) (records : List α) : Bool :=
  match records.find? p with
  | some r => foreign t (owner r) && records.any fun q => !foreign t (owner q) && p q
  | none => false

/-- Another tenant's profile stands before every profile of that ID that `t` may use, and `t` may use one. -/
def shadowsInspectionProfile (t : String) (profiles : List InspectionProfile) (id : String) : Bool :=
  shadowed (·.tenantID) t (fun q => trimSpace q.id == trimSpace id) profiles

section Lists

variable {α β : Type} {owner : α → String} {t : String} {p : α → Bool}

theorem find?_visibleRecords (h : ∀ r, p r = true → foreign t (owner r) = false) (l : List α) :
    (visibleRecords owner t l).find? p = l.find? p := by
  rw [visibleRecords,find?_filter]
  apply find?_congr
  intro r _
  cases hp : p r with
  | false => simp
  | true => simp [h r hp]

theorem findSome?_visibleRecords {f : α → Option β} (h : ∀ r, foreign t (owner r) = true → f r = none)
    (l : List α) : (visibleRecords owner t l).findSome? f = l.findSome? f := by
  unfold visibleRecords
  induction l with
  | nil => rfl
  | cons r l ih =>
    cases hr : foreign t (owner r) with
    | false => simp [hr,ih,findSome?_cons]
    | true => simp [hr,ih,h r hr]

theorem filter_find?_eq (p : α → Bool) (l : List α) :
    (l.find? p).filter (fun r => !foreign t (owner r)) =
      if shadowed owner t p l then none else (visibleRecords owner t l).find? p := by
  rw [visibleRecords,find?_filter]
  cases hfind : l.find? p with
  | none =>
    have hnone : l.find? (fun r => !foreign t (owner r) && p r) = none := by
      rw [find?_eq_none] at hfind ⊢
      intro r hr
      simp [hfind r hr]
    simp [hnone]
  | some r =>
    cases hr : foreign t (owner r) with
    | false =>
      obtain ⟨hpr, before, after, rfl, hbefore⟩ := find?_eq_some_iff_append.mp hfind
      have hskip : before.find? (fun q => !foreign t (owner q) && p q) = none := by
        rw [find?_eq_none]
        intro q hq
        simp_all
      simp [shadowed,hfind,hr,hskip,hpr]
    | true =>
      simp only [shadowed,hfind,hr,Option.filter_some,Bool.not_true,Bool.false_eq_true,if_false]
      split_ifs with hany
      · rfl
      symm
      rw [find?_eq_none]
      intro q hq hvis
      exact hany (any_eq_true.mpr ⟨q,hq,by simpa using hvis⟩)

theorem isSome_find?_of_shadowed {l : List α} (h : shadowed owner t p l = true) :
    ((visibleRecords owner t l).find? p).isSome = true := by
  unfold shadowed at h
  cases hfind : l.find? p with
  | none => simp [hfind] at h
  | some r =>
    simp only [hfind,Bool.and_eq_true,any_eq_true] at h
    obtain ⟨-, q, hq, hvis, hpq⟩ := h
    exact find?_isSome.mpr ⟨q,by simp [visibleRecords,hq,hvis],hpq⟩

end Lists

section OneRun

variable {e : Evaluator} {now : Time} {req : DecisionRequest} {bundle bundle' : PolicyBundle} {policy : Policy}

theorem observed_of_serverInitiated (h : e.plane (e.enriched req) = .serverInitiated) :
    observed (e.evaluate now req) =
      ⟨"server_initiated_policy",
        ⟨(serverInitiatedDecisionFor now e.legacyExceptions (e.enriched req)).decision,
          (serverInitiatedDecisionFor now e.legacyExceptions (e.enriched req)).reasonCodes,[]⟩,{}⟩ := by
  simp only [evaluate,h]
  rfl

theorem observed_of_eastWest (h : e.plane (e.enriched req) = .eastWest) :
    observed (e.evaluate now req) =
      ⟨"east_west_policy",eastWestDecisionFor e.eastWest now (e.enriched req),{}⟩ := by
  simp only [evaluate,h]
  generalize eastWestDecisionFor e.eastWest now (e.enriched req) = out
  rfl

theorem observed_of_unmatched (h : e.plane (e.enriched req) = .northBound)
    (hm : e.matchedPolicy now (e.enriched req) = none) :
    observed (e.evaluate now req) = ⟨"",⟨"deny",["no_policy_match"],[]⟩,{}⟩ := by
  simp only [evaluate,h,hm]
  rfl

theorem observed_of_matched {names : List String} (h : e.plane (e.enriched req) = .northBound)
    (hm : e.matchedPolicy now (e.enriched req) = some (policy,names)) :
    observed (e.evaluate now req) =
      ⟨policy.id,
        (matchedOutcome now e.policyBundle policy (e.enriched req) (effectiveActorType (e.enriched req))).1,
        (matchedOutcome now e.policyBundle policy (e.enriched req) (effectiveActorType (e.enriched req))).2⟩ := by
  simp only [evaluate,h,hm]
  generalize matchedOutcome now e.policyBundle policy (e.enriched req) (effectiveActorType (e.enriched req)) = r
  rfl

def actedUpon (inspectionCtx : Option TLSInspectionReadinessContext) : Option (InspectionProfile × Bool) :=
  inspectionCtx.map fun ctx => (ctx.profile,ctx.quicApplicable)

theorem inspection_congr (policy : Policy) (req : DecisionRequest)
    {ctx ctx' : Option TLSInspectionReadinessContext} (h : actedUpon ctx = actedUpon ctx') :
    inspectionOutcome policy req ctx = inspectionOutcome policy req ctx' ∧
      inspectionFields policy ctx = inspectionFields policy ctx' := by
  cases ctx with
  | none =>
    cases ctx' with
    | none => exact ⟨rfl,rfl⟩
    | some c' => simp [actedUpon] at h
  | some c =>
    cases ctx' with
    | none => simp [actedUpon] at h
    | some c' =>
      simp only [actedUpon,Option.map_some,Option.some.injEq,Prod.mk.injEq] at h
      obtain ⟨hrouting, hcodes, hactions⟩ := acts_congr h.1 h.2
      constructor
      · funext out
        simp only [inspectionOutcome,hcodes,hactions]
      · funext swgCtx
        simp only [inspectionFields,hrouting,h.1]

theorem actedUpon_contextFor :
    actedUpon (tlsInspectionReadinessContextFor bundle policy req) =
      (resolvedInspectionProfile bundle policy req).map fun p => (p,requestIndicatesQUIC req) := by
  simp [actedUpon,tlsInspectionReadinessContextFor,Function.comp_def]

theorem matchedOutcome_congr {actorType : String}
    (hprofile : resolvedInspectionProfile bundle policy req = resolvedInspectionProfile bundle' policy req)
    (hrestriction : firstSWGTenantRestrictionRule bundle req policy =
      firstSWGTenantRestrictionRule bundle' req policy)
    (hbypass : firstSWGTLSBypassRule bundle req policy = firstSWGTLSBypassRule bundle' req policy)
    (hdlp : firstDLPRule bundle req policy = firstDLPRule bundle' req policy) :
    matchedOutcome now bundle policy req actorType = matchedOutcome now bundle' policy req actorType := by
  have hacted : actedUpon (tlsInspectionReadinessContextFor bundle policy req) =
      actedUpon (tlsInspectionReadinessContextFor bundle' policy req) := by
    rw [actedUpon_contextFor,actedUpon_contextFor,hprofile]
  have hswg : swgTenantEnforcementContextFor bundle policy req
        (tlsInspectionReadinessContextFor bundle policy req) =
      swgTenantEnforcementContextFor bundle' policy req
        (tlsInspectionReadinessContextFor bundle' policy req) := by
    unfold swgTenantEnforcementContextFor
    simp only [tlsInspectionReadinessContextFor,hprofile,hrestriction,hbypass,Option.map_map,Function.comp_def]
  obtain ⟨houtcome, hfields⟩ := inspection_congr policy req hacted
  simp only [matchedOutcome,hswg,houtcome,hfields,dlpOutcome,hdlp]

/-- The reason code that an inspection context leaves, and nothing else does. -/
def inspectionLayerCode : String := "tls_inspection_readiness_policy_layer"

theorem inspectionLayerCode_notMem_guard (ctx : BreakGlassPolicyContext) {out : Outcome}
    (h : inspectionLayerCode ∉ out.reasonCodes) :
    inspectionLayerCode ∉ (ctx.guard req policy out).reasonCodes := by
  have hreq : inspectionLayerCode ∉ ctx.requirementReasonCodes := by
    unfold BreakGlassPolicyContext.requirementReasonCodes
    split_ifs <;> decide
  have hreauth : inspectionLayerCode ∉ ctx.reauthenticationReasonCodes := by
    unfold BreakGlassPolicyContext.reauthenticationReasonCodes
    cases ctx.authFreshness <;> split_ifs <;> decide
  have hcodes : inspectionLayerCode ∉ appendUniqueStrings
      (appendUniqueString out.reasonCodes "break_glass_policy_matched")
      (ctx.requirementReasonCodes ++ ctx.reauthenticationReasonCodes) := by
    rw [mem_appendUniqueStrings,mem_append]
    rintro (hm | ⟨hm | hm, _⟩)
    · exact notMem_appendUniqueString h (show inspectionLayerCode ≠ "break_glass_policy_matched" by decide) hm
    · exact hreq hm
    · exact hreauth hm
  dsimp only [BreakGlassPolicyContext.guard]
  split_ifs with hok hrun
  · exact notMem_appendUniqueString hcodes (show inspectionLayerCode ≠ "reauthentication_required" by decide)
  · exact hcodes
  · exact notMem_appendUniqueString hcodes (show inspectionLayerCode ≠ "break_glass_policy_guard_failed" by decide)

theorem inspectionLayerCode_notMem_violation {code : String}
    (h : toolActionBoundaryViolation policy req = some code) : inspectionLayerCode ≠ code := by
  rintro rfl
  unfold toolActionBoundaryViolation at h
  split_ifs at h
  · exact absurd (Option.some.inj h) (by decide)
  · exact absurd (Option.some.inj h) (by decide)

theorem inspectionLayerCode_notMem_gated (actorType : String) :
    inspectionLayerCode ∉ (gatedOutcome now policy req actorType).reasonCodes := by
  have hpolicy : inspectionLayerCode ∉ (policyOutcome now policy req actorType).reasonCodes := by
    simp only [policyOutcome,reasonCodesForPolicyDecision]
    split
    · decide
    · decide
    · decide
    · split_ifs <;> decide
  have htool : inspectionLayerCode ∉ (toolGate policy req (policyOutcome now policy req actorType)).reasonCodes := by
    rcases toolGate_cases policy req (policyOutcome now policy req actorType) with ⟨h, _⟩ | ⟨code, _, hcode, h⟩
    · rwa [h]
    rw [h]
    simp only [mem_cons,not_mem_nil,or_false,not_or]
    exact ⟨by decide,by decide,inspectionLayerCode_notMem_violation hcode⟩
  have happroval : inspectionLayerCode ∉
      (approvalGate policy req (toolGate policy req (policyOutcome now policy req actorType))).reasonCodes := by
    rcases approvalGate_cases policy req (toolGate policy req (policyOutcome now policy req actorType)) with
      ⟨h, _⟩ | ⟨_, h⟩
    · rwa [h]
    · rw [h,mem_append,not_or]
      exact ⟨by decide,by unfold humanApprovalRequirementReasonCodes; split_ifs <;> decide⟩
  unfold gatedOutcome applyBreakGlassPolicyGuard
  cases breakGlassPolicyContextFor now policy req with
  | none => exact happroval
  | some ctx => exact inspectionLayerCode_notMem_guard ctx happroval

theorem dlpOutcome_reasonCodes (swgCtx : SWGTenantEnforcementContext) (out : Outcome) :
    (dlpOutcome bundle policy req swgCtx out).reasonCodes = out.reasonCodes := by
  unfold dlpOutcome
  split_ifs
  · rfl
  cases policy.dlp with
  | some spec => rfl
  | none => cases firstDLPRule bundle req policy <;> rfl

theorem inspectionLayerCode_mem_swg (swgCtx : SWGTenantEnforcementContext) (out : Outcome) :
    inspectionLayerCode ∈ (swgOutcome policy req swgCtx out).reasonCodes ↔
      inspectionLayerCode ∈ out.reasonCodes := by
  unfold swgOutcome
  split_ifs
  · rw [SWGTenantEnforcementContext.appendReasonCodes,mem_appendUniqueStrings,or_iff_left]
    rintro ⟨hm, _⟩
    simp only [mem_append] at hm
    rcases hm with ((hm | hm) | hm) | hm
    · exact absurd hm (by decide)
    all_goals
      split_ifs at hm
      · exact absurd hm (by decide)
      · exact absurd hm not_mem_nil
  · rfl

theorem TLSInspectionReadinessContext.layerCode_mem (ctx : TLSInspectionReadinessContext) (codes : List String) :
    inspectionLayerCode ∈ ctx.appendReasonCodes codes := by
  have h : inspectionLayerCode ∈ appendUniqueString codes "tls_inspection_readiness_policy_layer" :=
    mem_appendUniqueString.mpr (.inr ⟨rfl,by decide⟩)
  unfold appendReasonCodes
  split_ifs
  · exact mem_appendUniqueString.mpr (.inl h)
  · exact h

theorem inspectionLayerCode_mem_matched (actorType : String) :
    inspectionLayerCode ∈ (matchedOutcome now bundle policy req actorType).1.reasonCodes ↔
      (resolvedInspectionProfile bundle policy req).isSome = true := by
  have hgated : inspectionLayerCode ∉ (gatedOutcome now policy req actorType).reasonCodes :=
    inspectionLayerCode_notMem_gated actorType
  simp only [matchedOutcome,dlpOutcome_reasonCodes,inspectionLayerCode_mem_swg]
  cases hp : resolvedInspectionProfile bundle policy req with
  | none => simpa [tlsInspectionReadinessContextFor,hp,inspectionOutcome] using hgated
  | some profile =>
    simp only [tlsInspectionReadinessContextFor,hp,Option.map_some,inspectionOutcome,Option.isSome_some,iff_true]
    exact layerCode_mem _ _

end OneRun

section TwoRuns

variable {e₁ e₂ : Evaluator} {now : Time} {req : DecisionRequest} {t : String}

theorem firstRules_visible (e : Evaluator) (policy : Policy) (ht : trimSpace req.tenantID ≠ "") :
    firstSWGTenantRestrictionRule (e.visibleTo req.tenantID).policyBundle req policy =
        firstSWGTenantRestrictionRule e.policyBundle req policy ∧
      firstSWGTLSBypassRule (e.visibleTo req.tenantID).policyBundle req policy =
        firstSWGTLSBypassRule e.policyBundle req policy ∧
      firstDLPRule (e.visibleTo req.tenantID).policyBundle req policy =
        firstDLPRule e.policyBundle req policy := by
  refine ⟨find?_visibleRecords ?_ _,find?_visibleRecords ?_ _,find?_visibleRecords ?_ _⟩
  all_goals
    intro rule h
    simp only [tenantMatches_eq_not_foreign ht] at h
    grind

theorem enriched_visible (e : Evaluator) (ht : trimSpace req.tenantID ≠ "") :
    (e.visibleTo req.tenantID).enriched req = e.enriched req := by
  have hsame : saasContextForRequest (e.visibleTo req.tenantID).policyBundle
        (clearDecisionRequestSaaSContext req) =
      saasContextForRequest e.policyBundle (clearDecisionRequestSaaSContext req) := by
    unfold saasContextForRequest
    have hclear : (clearDecisionRequestSaaSContext req).tenantID = req.tenantID := rfl
    simp only [hclear,ne_eq,ht]
    apply findSome?_visibleRecords
    intro entry hentry
    simp [saasCatalogEntryInTenantScope_eq ht,hentry]
  unfold enriched decisionRequestWithSaaSContext
  rw [hsame]

theorem matchedPolicy_visible (e : Evaluator) (ht : trimSpace req.tenantID ≠ "") :
    (e.visibleTo req.tenantID).matchedPolicy now req = e.matchedPolicy now req := by
  apply firstMatchedPolicy_filter
  intro p _ hp
  have happlies := (policyMatches_iff.mp hp).2.1
  simp only [policyTenantAppliesTo,Bool.or_eq_true,beq_iff_eq,ht,or_false] at happlies
  simp only [foreign,Bool.not_eq_true',Bool.and_eq_false_iff]
  rcases happlies with h | h
  · exact .inl (by simp [h])
  · exact .inr (by simp [h])

theorem resolvedInspectionProfile_visible (e : Evaluator) (policy : Policy) (ht : trimSpace req.tenantID ≠ "")
    (hid : namedInspectionProfile policy ≠ "") :
    resolvedInspectionProfile e.policyBundle policy req =
      if shadowsInspectionProfile req.tenantID e.policyBundle.inspectionProfiles (namedInspectionProfile policy)
      then none
      else resourceByID (·.id) (e.visibleTo req.tenantID).policyBundle.inspectionProfiles
        (namedInspectionProfile policy) := by
  have hmatch : ∀ profile : InspectionProfile,
      tenantMatches profile.tenantID e.policyBundle.tenantID policy.tenantID req.tenantID =
        !foreign req.tenantID profile.tenantID :=
    fun profile => tenantMatches_eq_not_foreign ht _ _ _
  simp only [resolvedInspectionProfile,hid,hmatch]
  exact filter_find?_eq _ _

/-- The inspection profile that the matched policy names is shadowed in both evaluators or in neither. -/
def SameShadowing (e₁ e₂ : Evaluator) (now : Time) (req : DecisionRequest) : Prop :=
  ∀ policy names, e₁.plane (e₁.enriched req) = .northBound →
    e₁.matchedPolicy now (e₁.enriched req) = some (policy,names) → namedInspectionProfile policy ≠ "" →
    shadowsInspectionProfile req.tenantID e₁.policyBundle.inspectionProfiles (namedInspectionProfile policy) =
      shadowsInspectionProfile req.tenantID e₂.policyBundle.inspectionProfiles (namedInspectionProfile policy)

variable (ht : trimSpace req.tenantID ≠ "") (hvis : e₁.visibleTo req.tenantID = e₂.visibleTo req.tenantID)

include ht hvis

omit ht in
theorem plane_eq (r : DecisionRequest) : e₁.plane r = e₂.plane r := by
  have hserver := congrArg serverInitiatedEnabled hvis
  have heast := congrArg eastWest hvis
  simp only [visibleTo] at hserver heast
  simp only [plane,hserver,heast]

theorem firstRules_eq (policy : Policy) :
    firstSWGTenantRestrictionRule e₁.policyBundle req policy =
        firstSWGTenantRestrictionRule e₂.policyBundle req policy ∧
      firstSWGTLSBypassRule e₁.policyBundle req policy = firstSWGTLSBypassRule e₂.policyBundle req policy ∧
      firstDLPRule e₁.policyBundle req policy = firstDLPRule e₂.policyBundle req policy := by
  obtain ⟨hr₁, hb₁, hd₁⟩ := firstRules_visible e₁ policy ht
  obtain ⟨hr₂, hb₂, hd₂⟩ := firstRules_visible e₂ policy ht
  rw [← hr₁,← hb₁,← hd₁,← hr₂,← hb₂,← hd₂,hvis]
  exact ⟨rfl,rfl,rfl⟩

theorem resolvedInspectionProfile_isSome_eq_iff (policy : Policy) (hid : namedInspectionProfile policy ≠ "") :
    (resolvedInspectionProfile e₁.policyBundle policy req).isSome =
        (resolvedInspectionProfile e₂.policyBundle policy req).isSome ↔
      shadowsInspectionProfile req.tenantID e₁.policyBundle.inspectionProfiles (namedInspectionProfile policy) =
        shadowsInspectionProfile req.tenantID e₂.policyBundle.inspectionProfiles
          (namedInspectionProfile policy) := by
  rw [resolvedInspectionProfile_visible e₁ policy ht hid,resolvedInspectionProfile_visible e₂ policy ht hid,hvis]
  have hsome₁ := @isSome_find?_of_shadowed _ (·.tenantID) req.tenantID
    (fun q : InspectionProfile => trimSpace q.id == trimSpace (namedInspectionProfile policy))
    e₁.policyBundle.inspectionProfiles
  have hsome₂ := @isSome_find?_of_shadowed _ (·.tenantID) req.tenantID
    (fun q : InspectionProfile => trimSpace q.id == trimSpace (namedInspectionProfile policy))
    e₂.policyBundle.inspectionProfiles
  have hprofiles : visibleRecords (·.tenantID) req.tenantID e₁.policyBundle.inspectionProfiles =
      visibleRecords (·.tenantID) req.tenantID e₂.policyBundle.inspectionProfiles :=
    congrArg (fun e : Evaluator => e.policyBundle.inspectionProfiles) hvis
  rw [hprofiles] at hsome₁
  cases h₁ : shadowsInspectionProfile req.tenantID e₁.policyBundle.inspectionProfiles
      (namedInspectionProfile policy) <;>
    cases h₂ : shadowsInspectionProfile req.tenantID e₂.policyBundle.inspectionProfiles
      (namedInspectionProfile policy)
  · simp
  · have := hsome₂ h₂
    simpa [visibleTo,resourceByID] using this
  · have := hsome₁ h₁
    simpa [visibleTo,resourceByID] using this
  · simp

/-- A tenant's request is answered alike by two evaluators that agree on everything not owned by other tenants,
exactly when other tenants' profiles shadow the inspection profile of the matched policy alike. -/
theorem evaluate_noninterference_iff :
    observed (e₁.evaluate now req) = observed (e₂.evaluate now req) ↔ SameShadowing e₁ e₂ now req := by
  have hreq : e₁.enriched req = e₂.enriched req := by
    rw [← enriched_visible e₁ ht,← enriched_visible e₂ ht,hvis]
  have htenant : (e₂.enriched req).tenantID = req.tenantID :=
    decisionRequestWithSaaSContext_tenantID e₂.policyBundle req
  have hplane : e₁.plane (e₁.enriched req) = e₂.plane (e₂.enriched req) := by rw [hreq,plane_eq hvis]
  have ht' : trimSpace (e₂.enriched req).tenantID ≠ "" := by rwa [htenant]
  have hvis' : e₁.visibleTo (e₂.enriched req).tenantID = e₂.visibleTo (e₂.enriched req).tenantID := by
    rwa [htenant]
  have hpolicy : e₁.matchedPolicy now (e₁.enriched req) = e₂.matchedPolicy now (e₂.enriched req) := by
    rw [hreq,← matchedPolicy_visible e₁ ht',← matchedPolicy_visible e₂ ht',hvis']
  unfold SameShadowing
  cases hp : e₁.plane (e₁.enriched req) with
  | serverInitiated =>
    have hex := congrArg legacyExceptions hvis
    simp only [visibleTo] at hex
    rw [observed_of_serverInitiated hp,observed_of_serverInitiated (hplane ▸ hp),hreq,hex]
    simp
  | eastWest =>
    have heast := congrArg eastWest hvis
    simp only [visibleTo] at heast
    rw [observed_of_eastWest hp,observed_of_eastWest (hplane ▸ hp),hreq,heast]
    simp
  | northBound =>
    cases hm : e₁.matchedPolicy now (e₁.enriched req) with
    | none =>
      rw [observed_of_unmatched hp hm,observed_of_unmatched (hplane ▸ hp) (hpolicy ▸ hm)]
      simp
    | some matched =>
      obtain ⟨policy, names⟩ := matched
      rw [observed_of_matched hp hm,observed_of_matched (hplane ▸ hp) (hpolicy ▸ hm),hreq]
      obtain ⟨hrestriction, hbypass, hdlp⟩ := firstRules_eq ht' hvis' policy
      constructor
      · intro heq policy' names' _ hmatched hid
        obtain ⟨rfl, rfl⟩ := Prod.mk.inj (Option.some.inj hmatched)
        have hcodes := congrArg (fun o : Observation => inspectionLayerCode ∈ o.outcome.reasonCodes) heq
        simp only [inspectionLayerCode_mem_matched,eq_iff_iff] at hcodes
        rw [← htenant]
        exact (resolvedInspectionProfile_isSome_eq_iff ht' hvis' policy hid).mp (Bool.eq_iff_iff.mpr hcodes)
      · intro hshadow
        have hresolved : resolvedInspectionProfile e₁.policyBundle policy (e₂.enriched req) =
            resolvedInspectionProfile e₂.policyBundle policy (e₂.enriched req) := by
          by_cases hid : namedInspectionProfile policy = ""
          · simp [resolvedInspectionProfile,hid]
          · rw [resolvedInspectionProfile_visible e₁ policy ht' hid,
              resolvedInspectionProfile_visible e₂ policy ht' hid,hvis',htenant,hshadow policy names rfl rfl hid]
        rw [matchedOutcome_congr hresolved hrestriction hbypass hdlp]

end TwoRuns

def profilePolicy : Policy :=
  { id := "p", tenantID := "a", status := "active", action := ⟨"allow"⟩, inspectionProfileID := some "standard" }

def ownProfile : InspectionProfile := { id := "standard", tenantID := "a", tlsInterceptionEnabled := true }

def aloneEvaluator : Evaluator :=
  { policies := [profilePolicy], policyBundle := { inspectionProfiles := [ownProfile] } }

/-- The same, after tenant `b` has put a profile of the same ID in front. -/
def neighbourEvaluator : Evaluator :=
  { aloneEvaluator with
    policyBundle := { inspectionProfiles := [{ ownProfile with tenantID := "b" },ownProfile] } }

def tenantRequest : DecisionRequest := { tenantID := "a" }

theorem evaluate_noninterference_iff_neighbour :
    trimSpace tenantRequest.tenantID ≠ "" ∧
      aloneEvaluator.visibleTo tenantRequest.tenantID = neighbourEvaluator.visibleTo tenantRequest.tenantID ∧
      (observed (aloneEvaluator.evaluate 0 tenantRequest) = observed (neighbourEvaluator.evaluate 0 tenantRequest) ↔
        SameShadowing aloneEvaluator neighbourEvaluator 0 tenantRequest) :=
  ⟨by decide,rfl,evaluate_noninterference_iff (by decide) rfl⟩

/-- The neighbour's profile switches the inspection of tenant `a` off. -/
theorem evaluate_interferes_on_shared_id :
    trimSpace tenantRequest.tenantID ≠ "" ∧
      aloneEvaluator.visibleTo tenantRequest.tenantID = neighbourEvaluator.visibleTo tenantRequest.tenantID ∧
      (aloneEvaluator.evaluate 0 tenantRequest).inspectionRouteCategory = some "tls_readiness_candidate" ∧
      (neighbourEvaluator.evaluate 0 tenantRequest).inspectionRouteCategory = none ∧
      observed (aloneEvaluator.evaluate 0 tenantRequest) ≠
        observed (neighbourEvaluator.evaluate 0 tenantRequest) := by
  have halone : (aloneEvaluator.evaluate 0 tenantRequest).inspectionRouteCategory =
      some "tls_readiness_candidate" := by decide +kernel
  have hneighbour : (neighbourEvaluator.evaluate 0 tenantRequest).inspectionRouteCategory = none := by
    decide +kernel
  refine ⟨by decide,rfl,halone,hneighbour,fun h => ?_⟩
  have hroute := congrArg (fun o : Observation => o.inspection.routeCategory) h
  simp only [observed,halone,hneighbour] at hroute
  exact absurd hroute (by decide)

end DsseCore.Decision
