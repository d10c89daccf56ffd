import DsseCore.Decision.Noninterference
import DsseCore.PolicyStore.Planes

/-!
# What a bundle preserves

After an Edge applied the bundle of a tenant, its evaluator holds the tenant's active policies, restriction rules and
server-initiated configuration of the control plane.  This asks for compiled policies that the Edge accepts, under
IDs of their own.
-/

namespace DsseCore.PolicyStore

open Go Model Decision TenantRestriction PolicyRule Lib List Std.ExtTreeMap

variable {t : String} {p : Policy} {s : Store}

/-- The active policies that apply to a tenant, as decisions see them. -/
def activeViews (e : Evaluator) (t : String) : Set (Policy × Bool) :=
  {v | ∃ p ∈ visibleRecords (·.tenantID) t e.policies, p.status = "active" ∧ decisionView p = v}

/-- Two evaluators hold the same configuration for a tenant. -/
structure Faithful (t : String) (control edge : Evaluator) : Prop where
  policies : activeViews control t = activeViews edge t
  rules : visibleRecords (·.tenantID) t control.policyBundle.swgTenantRestrictionRules =
    visibleRecords (·.tenantID) t edge.policyBundle.swgTenantRestrictionRules
  serverInitiated : control.serverInitiatedEnabled = edge.serverInitiatedEnabled
  legacyExceptions : control.legacyExceptions = edge.legacyExceptions

/-- The state of a control plane whose bundle can be taken over: compiled policies have conditions, a plain ID that
is theirs alone and no boundary of blank tools; and the server-initiated configuration is either set or off. -/
structure Shippable (s : Store) (base : Evaluator) (t : String) : Prop where
  unowned : s.compiledPolicies[""]? = none
  conditions : ∀ p ∈ s.compiledPolicies[t]?.getD [], p.conditions.isEmpty = false
  ids : ∀ p ∈ s.compiledPolicies[t]?.getD [], trimSpace p.id = p.id ∧ contains p.id "/" = false
  tools : ∀ p ∈ s.compiledPolicies[t]?.getD [], p.allowedToolIDs = [] ∨ normalizedStringList p.allowedToolIDs ≠ []
  distinct : ((s.compiledPolicies[t]?.getD []).map (·.id)).Nodup
  separate : ∀ p ∈ s.compiledPolicies[t]?.getD [], s.policies.find t p.id = none
  serverInitiated : s.runtime.serverInitiatedEnabled[t]? = none → base.serverInitiatedEnabled = false
  legacyExceptions : s.runtime.legacyExceptions[t]? = none → base.legacyExceptions = []

theorem mem_visibleRecords (ht : trimSpace t = t) {l : List Policy} :
    p ∈ visibleRecords (·.tenantID) t l ↔ p ∈ l ∧ (trimSpace p.tenantID = "" ∨ trimSpace p.tenantID = t) := by
  simp only [visibleRecords,mem_filter,foreign,ht,Bool.not_eq_true',Bool.and_eq_false_iff,decide_eq_false_iff_not,
    not_not]

section Control

variable {σ : Planes} {base : Evaluator}

theorem Planes.Inv.compiled_mem (hσ : σ.Inv) (hp : p ∈ σ.control.compiledPolicies[t]?.getD []) : CompiledFor t p := by
  cases hps : σ.control.compiledPolicies[t]? with
  | none => simp [hps] at hp
  | some ps => exact hσ.compiled t ps hps p (by simpa [hps] using hp)

theorem Store.Sound.find (hs : s.Sound) {tenant id : String} (h : s.policies.find tenant id = some p) :
    p.tenantID = tenant ∧ p.id = id ∧ trimSpace tenant = tenant ∧ tenant ≠ "" ∧ Deliverable p :=
  admitted_effective hs.base hs.runtime (by rw [← hs.layered.effective]; exact h)

theorem Store.Sound.mem_cachedPolicies (hs : s.Sound) :
    p ∈ s.cachedPolicies ↔ ∃ tenant id, s.policies.find tenant id = some p := by
  rw [hs.layered.flattened.mem_iff]
  exact mem_flattenPolicies

variable (hσ : σ.Inv) (ht : trimSpace t = t) (hne : t ≠ "") (hs : Shippable σ.control base t)

include hσ ht hne hs

theorem deliverable_of_mem_snapshot (hp : p ∈ σ.control.snapshot t) : Deliverable p := by
  rcases (mem_snapshot ht hne).mp hp with ⟨id, hid⟩ | hp
  · exact (hσ.control.find hid).2.2.2.2
  have hc := hσ.compiled_mem hp
  exact ⟨(hs.ids p hp).1,hc.id_ne,(hs.ids p hp).2,by rw [hc.status]; rfl,hc.decision,hs.conditions p hp,
    hs.tools p hp,fun l hl => by rw [hc.lists l hl]; rfl⟩

theorem snapshot_unique {q : Policy} (hp : p ∈ σ.control.snapshot t) (hq : q ∈ σ.control.snapshot t)
    (hid : p.id = q.id) : p = q := by
  rcases (mem_snapshot ht hne).mp hp with ⟨i, hi⟩ | hp <;> rcases (mem_snapshot ht hne).mp hq with ⟨j, hj⟩ | hq
  · obtain rfl := (hσ.control.find hi).2.1
    obtain rfl := (hσ.control.find hj).2.1
    rw [hid,hj] at hi
    exact (Option.some.inj hi).symm
  · obtain rfl := (hσ.control.find hi).2.1
    rw [hid,hs.separate q hq] at hi
    cases hi
  · obtain rfl := (hσ.control.find hj).2.1
    rw [← hid,hs.separate p hp] at hj
    cases hj
  · exact inj_on_of_nodup_map hs.distinct hp hq hid

theorem mem_control_policies :
    p ∈ visibleRecords (·.tenantID) t (σ.control.runtimeEvaluator base).policies ↔ p ∈ σ.control.snapshot t := by
  rw [mem_visibleRecords ht,mem_snapshot ht hne]
  constructor
  · rintro ⟨hp, hvisible⟩
    rcases mem_mergeCompiled_of_mem hp with hp | hp
    · obtain ⟨tenant, id, hfind⟩ := hσ.control.mem_cachedPolicies.mp hp
      obtain ⟨howner, _, htrim, hblank, _⟩ := hσ.control.find hfind
      rw [howner,htrim] at hvisible
      obtain rfl : tenant = t := hvisible.resolve_left hblank
      exact .inl ⟨id,hfind⟩
    · obtain ⟨⟨owner, ps⟩, howner, hp⟩ := mem_flatMap.mp hp
      have hps := mem_toList_iff_getElem?_eq_some.mp howner
      rw [(hσ.compiled owner ps hps p hp).owner] at hvisible
      rcases hvisible with rfl | rfl
      · simp [hs.unowned] at hps
      · exact .inr (by simpa [hps] using hp)
  · rintro (⟨id, hfind⟩ | hp)
    · obtain ⟨howner, _, htrim, _, _⟩ := hσ.control.find hfind
      exact ⟨subset_mergeCompiled _ _ (hσ.control.mem_cachedPolicies.mpr ⟨t,id,hfind⟩),.inr (howner ▸ htrim)⟩
    have hc := hσ.compiled_mem hp
    refine ⟨mem_mergeCompiled ?_ (fun q hq howner hid => ?_) fun q hq howner hid => ?_,.inr hc.owner⟩
    · cases hps : σ.control.compiledPolicies[t]? with
      | none => simp [hps] at hp
      | some ps =>
        exact mem_flatMap.mpr ⟨(t,ps),mem_toList_iff_getElem?_eq_some.mpr hps,
          by simpa [hps] using hp⟩
    · -- a policy of the store under the same owner and ID is excluded
      obtain ⟨tenant, id, hfind⟩ := hσ.control.mem_cachedPolicies.mp hq
      obtain ⟨hq1, hq2, hq3, _, _⟩ := hσ.control.find hfind
      have htenant : tenant = t := by rw [← hq3,← hq1,howner,hc.owner]
      rw [htenant,← hq2,hid,hs.separate p hp] at hfind
      cases hfind
    · obtain ⟨⟨owner, ps⟩, hmem, hq⟩ := mem_flatMap.mp hq
      have hps := mem_toList_iff_getElem?_eq_some.mp hmem
      have hkey : owner = t := by rw [← (hσ.compiled owner ps hps q hq).owner,howner,hc.owner]
      subst hkey
      exact inj_on_of_nodup_map hs.distinct (by simpa [hps] using hq) hp hid

end Control

variable {σ : Planes} {base : Evaluator}

theorem validTenantConfig_snapshot (hvalid : runtimeStateValid s.runtime = true) (ht : trimSpace t = t) (hne : t ≠ "") :
    validTenantConfig (s.snapshotTenantConfig t) = true := by
  simp only [runtimeStateValid,Bool.and_eq_true,all_eq_true,Prod.forall,
    mem_toList_iff_getElem?_eq_some] at hvalid
  obtain ⟨hmodes, hrestrictions⟩ := hvalid
  simp only [validTenantConfig,Store.snapshotTenantConfig,ht,hne,if_false,Bool.and_eq_true,Bool.or_eq_true,
    Option.getD_some]
  constructor
  · right
    cases hm : s.runtime.upstreamTLSModes[t]? with
    | none => rfl
    | some mode =>
      have hmode := (hmodes t mode hm).2
      rw [effectiveUpstreamTLSMode]
      split
      · rfl
      · exact hmode
  · cases hr : s.runtime.saasTenantRestrictions[t]? with
    | none => rfl
    | some settings => exact hrestrictions t settings hr

section

variable (hσ : σ.Inv) (ht : trimSpace t = t) (hne : t ≠ "")
include hσ ht hne

theorem distribute_edge (now : Time) : (σ.distribute t now).edge.runtimeBasePolicies =
        σ.edge.runtimeBasePolicies.insert t (freshPolicies t (σ.control.snapshot t) now) ∧
      (σ.distribute t now).edge.runtime =
        applyTenantConfig σ.edge.runtime t (σ.control.snapshotTenantConfig t) := by
  have hvalid := validTenantConfig_snapshot hσ.valid ht hne
  simp only [Planes.distribute,Store.applyBundle,ht]
  rw [if_neg (by simp [hvalid,hne])]
  exact ⟨rfl,rfl⟩

theorem mem_edge_policies (now : Time) {q : Policy} :
    q ∈ visibleRecords (·.tenantID) t ((σ.distribute t now).edge.runtimeEvaluator base).policies ↔
      ∃ id : String, (freshPolicies t (σ.control.snapshot t) now)[id]? = some q := by
  have hinv := inv_distribute hσ t now
  have hfind : ∀ id : String, (σ.distribute t now).edge.policies.find t id =
      (freshPolicies t (σ.control.snapshot t) now)[id]? := by
    intro id
    rw [hinv.edge.layered.effective,effectivePolicy,hinv.receiver.authored,hinv.receiver.overrides,
      (distribute_edge hσ ht hne now).1]
    simp [Rows.find]
  have hpolicies : ((σ.distribute t now).edge.runtimeEvaluator base).policies =
      (σ.distribute t now).edge.cachedPolicies := by
    simp only [Store.runtimeEvaluator,hinv.receiver.compiled]
    rfl
  rw [mem_visibleRecords ht,hpolicies,hinv.edge.mem_cachedPolicies]
  constructor
  · rintro ⟨⟨tenant, id, h⟩, hvisible⟩
    obtain ⟨howner, _, htrim, hblank, _⟩ := hinv.edge.find h
    rw [howner,htrim] at hvisible
    obtain rfl : tenant = t := hvisible.resolve_left hblank
    exact ⟨id,hfind id ▸ h⟩
  · rintro ⟨id, h⟩
    have h' := (hfind id).trans h
    obtain ⟨howner, _, htrim, _, _⟩ := hinv.edge.find h'
    exact ⟨⟨t,id,h'⟩,.inr (howner ▸ htrim)⟩

theorem faithful_policies (hs : Shippable σ.control base t) (now : Time) :
    activeViews (σ.control.runtimeEvaluator base) t =
      activeViews ((σ.distribute t now).edge.runtimeEvaluator base) t := by
  have hstatus : ∀ {p q : Policy}, decisionView q = decisionView p → q.status = p.status :=
    fun h => congrArg (fun v : Policy × Bool => v.1.status) h
  ext v
  simp only [activeViews,mem_control_policies hσ ht hne hs,mem_edge_policies hσ ht hne now]
  constructor
  · rintro ⟨p, hp, hactive, rfl⟩
    obtain ⟨q, hq, hid, _, hview⟩ := (deliverable_of_mem_snapshot hσ ht hne hs hp).normalize ht hne now
    refine ⟨q,⟨q.id,freshPolicies_of_mem hp hq fun p' hp' q' hq' hid' => ?_⟩,(hstatus hview).trans hactive,hview⟩
    obtain ⟨r, hr, hrid, _, _⟩ := (deliverable_of_mem_snapshot hσ ht hne hs hp').normalize ht hne now
    rw [hr] at hq'
    cases hq'
    obtain rfl := snapshot_unique hσ ht hne hs hp' hp (by rw [← hrid,hid',hid])
    rw [hr] at hq
    exact Except.ok.inj hq
  · rintro ⟨q, ⟨id, hfresh⟩, hactive, rfl⟩
    obtain ⟨_, p, hp, hq⟩ := getElem?_freshPolicies hfresh
    obtain ⟨r, hr, _, _, hview⟩ := (deliverable_of_mem_snapshot hσ ht hne hs hp).normalize ht hne now
    rw [hr] at hq
    cases hq
    exact ⟨p,hp,(hstatus hview).symm.trans hactive,hview.symm⟩

end

theorem visible_compiledRules {f : RuntimeState} (hf : f.Admissible) (ht : trimSpace t = t) :
    visibleRecords (·.tenantID) t (f.saasTenantRestrictions.toList.flatMap fun e =>
        (configuredProviders e.2).map fun c => rule e.1 c.1 c.2) =
      (configuredProviders (f.saasTenantRestrictions[t]?.getD ∅)).map fun c => rule t c.1 c.2 := by
  have hnone : configuredProviders (∅ : Map Setting) = [] := by simp [configuredProviders]
  rw [visibleRecords,filter_flatMap,Map.flatMap_toList_of_key _ t]
  · cases f.saasTenantRestrictions[t]? with
    | none => simp [hnone]
    | some settings =>
      refine filter_eq_self.mpr fun r hr => ?_
      obtain ⟨c, _, rfl⟩ := mem_map.mp hr
      simp [foreign,rule]
  · intro k settings hk hkt
    cases hempty : settings.isEmpty with
    | true =>
      rw [isEmpty_iff.mp hempty]
      rfl
    | false =>
      obtain ⟨htrim, hblank⟩ := hf.settings k settings hk hempty
      refine filter_eq_nil_iff.mpr fun r hr => ?_
      obtain ⟨c, _, rfl⟩ := mem_map.mp hr
      simp [foreign,rule,htrim,hblank,ht,hkt]

theorem visible_rules (hs : s.runtime.Admissible) (ht : trimSpace t = t) :
    visibleRecords (·.tenantID) t (s.runtimeEvaluator base).policyBundle.swgTenantRestrictionRules =
      (visibleRecords (·.tenantID) t base.policyBundle.swgTenantRestrictionRules ++
        (configuredProviders (s.runtime.saasTenantRestrictions[t]?.getD ∅)).map fun c => rule t c.1 c.2).map
          (overrideRuleStatus s.runtime.tenantRestrictionRuleStatus) := by
  have howner : ∀ r, (overrideRuleStatus s.runtime.tenantRestrictionRuleStatus r).tenantID = r.tenantID := by
    intro r
    unfold overrideRuleStatus
    split <;> rfl
  rw [← visible_compiledRules hs ht]
  simp only [Store.runtimeEvaluator,compileTenantRestrictions,visibleRecords,filter_map,← filter_append]
  congr 2
  funext r
  simp [howner]

theorem edge_statuses (hσ : σ.Inv) (ht : trimSpace t = t) (hne : t ≠ "") :
    (applyTenantConfig σ.edge.runtime t (σ.control.snapshotTenantConfig t)).tenantRestrictionRuleStatus =
      σ.control.runtime.tenantRestrictionRuleStatus := by
  simp only [applyTenantConfig,Store.snapshotTenantConfig,ht,hne,if_false]
  cases hempty : σ.control.runtime.tenantRestrictionRuleStatus.isEmpty with
  | false => rfl
  | true =>
    -- nothing is shipped, and the Edge has nothing left over
    have hedge : σ.edge.runtime.tenantRestrictionRuleStatus.isEmpty = true := by
      by_contra h
      rw [Bool.not_eq_true] at h
      simp [hσ.statuses h] at hempty
    rw [if_pos rfl,Option.getD_none,isEmpty_iff.mp hedge,isEmpty_iff.mp hempty]

/-- In every run, a bundle of a shippable state gives the Edge the control plane's configuration of the tenant. -/
theorem bundle_faithful {seed edgeSeed : List Policy} {persister : Persister} {start : Time} {ls : List PlaneLabel}
    {σ : Planes} (h : Run PlaneStep (Planes.initial seed edgeSeed persister start) ls σ) {t : String}
    (ht : trimSpace t = t) (hne : t ≠ "") {base : Evaluator} (hbase : trimSpace base.policyBundle.tenantID = t)
    (hs : Shippable σ.control base t) (now : Time) :
    Faithful t (σ.control.runtimeEvaluator base) ((σ.distribute t now).edge.runtimeEvaluator base) := by
  have hσ := inv_of_run h
  have hinv := inv_distribute hσ t now
  have hruntime := (distribute_edge hσ ht hne now).2
  refine ⟨faithful_policies hσ ht hne hs now,?_,?_,?_⟩
  · rw [visible_rules hσ.control.runtime ht,visible_rules hinv.edge.runtime ht,hruntime,edge_statuses hσ ht hne]
    simp [applyTenantConfig,Store.snapshotTenantConfig,ht,hne,setIfGiven]
  · have hoff := hs.serverInitiated
    simp only [Store.runtimeEvaluator,compileTenantRestrictions,hbase,hruntime,applyTenantConfig,
      Store.snapshotTenantConfig,ht,hne,if_false,getElem?_insert_self,Option.getD_some]
    cases hget : σ.control.runtime.serverInitiatedEnabled[t]? with
    | none => exact hoff hget
    | some enabled => rfl
  · have hoff := hs.legacyExceptions
    simp only [Store.runtimeEvaluator,compileTenantRestrictions,hbase,hruntime,applyTenantConfig,
      Store.snapshotTenantConfig,ht,hne,if_false,getElem?_insert_self,Option.map_some,Option.getD_some]
    cases hget : σ.control.runtime.legacyExceptions[t]? with
    | none => exact hoff hget
    | some exceptions => rfl

def denyEverything : Rule :=
  { id := "r1", tenantID := "acme", plane := "egress", source := ["*"], destination := ["*"]
    action := { access := "deny", inspection := "inspect" }, status := "active", stage := "enforce" }

def denyServer : Rule := { denyEverything with destination := ["server"] }

def serverCatalog : EgressResolver where
  sourceDeviceTokens _ _ := []
  endpointAddresses _ _ := ["a.example"]
  serviceTransportPorts := none

def oneRule (r : Rule) : Planes :=
  { Planes.initial [] [] .none 0 with
    control := (newStore [] 0).setCompiledPolicies "acme" (compileEgressPolicies "acme" [r] serverCatalog) }

theorem run_oneRule (r : Rule) :
    Run PlaneStep (Planes.initial [] [] .none 0) [.compile "acme" [r] serverCatalog] (oneRule r) :=
  .snoc (.nil _) rfl

def acmeBase : Evaluator := { policyBundle := { tenantID := "acme" } }

theorem bundle_faithful_denyServer : Normalized denyServer ∧
    Faithful "acme" ((oneRule denyServer).control.runtimeEvaluator acmeBase)
      (((oneRule denyServer).distribute "acme" 0).edge.runtimeEvaluator acmeBase) := by
  have hs : Shippable (oneRule denyServer).control acmeBase "acme" := by
    refine ⟨?_,?_,?_,?_,?_,?_,?_,?_⟩ <;> decide +kernel
  exact ⟨by decide +kernel,bundle_faithful (run_oneRule denyServer) (by decide +kernel) (by decide) (by decide +kernel) hs 0⟩

/-- The Edge refuses a policy without conditions, so the rule that denies everything does not arrive. -/
theorem bundle_drops_denyEverything : Normalized denyEverything ∧
    Run PlaneStep (Planes.initial [] [] .none 0) [.compile "acme" [denyEverything] serverCatalog]
      (oneRule denyEverything) ∧
    ¬ Faithful "acme" ((oneRule denyEverything).control.runtimeEvaluator acmeBase)
      (((oneRule denyEverything).distribute "acme" 0).edge.runtimeEvaluator acmeBase) := by
  refine ⟨by decide +kernel,run_oneRule denyEverything,fun h => ?_⟩
  have hedge : (((oneRule denyEverything).distribute "acme" 0).edge.runtimeEvaluator acmeBase).policies = [] := by
    decide +kernel
  have hcontrol : ∃ p ∈ visibleRecords (·.tenantID) "acme"
      ((oneRule denyEverything).control.runtimeEvaluator acmeBase).policies, p.status = "active" := by
    decide +kernel
  obtain ⟨p, hp, hactive⟩ := hcontrol
  have hview : decisionView p ∈ activeViews ((oneRule denyEverything).control.runtimeEvaluator acmeBase) "acme" :=
    ⟨p,hp,hactive,rfl⟩
  rw [h.policies] at hview
  obtain ⟨q, hq, _⟩ := hview
  simp [hedge,visibleRecords] at hq

end DsseCore.PolicyStore
