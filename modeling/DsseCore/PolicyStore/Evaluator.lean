import DsseCore.Decision.Evaluate
import DsseCore.PolicyStore.Overlay

/-!
# The evaluator of a store and the bundle of a tenant

`runtimeEvaluator` lays what a store holds over a base evaluator.  `snapshot` and `snapshotTenantConfig` are what a
control plane ships of one tenant.
-/

namespace DsseCore.PolicyStore

open Go Model Decision TenantRestriction List

def Store.snapshot (s : Store) (tenant : String) : List Policy :=
  let tenant := trimSpace tenant
  if tenant = "" then []
  else sortPolicies ((s.policies[tenant]?.getD ∅).toList.map Prod.snd ++ s.compiledPolicies[tenant]?.getD [])

/-- The distributed controls of a tenant.  Rule statuses are left out while there are none. -/
def Store.snapshotTenantConfig (s : Store) (tenant : String) : TenantConfigBundle :=
  let tenant := trimSpace tenant
  let f := s.runtime
  if tenant = "" then {}
  else
    { saasTenantRestrictions := some (f.saasTenantRestrictions[tenant]?.getD ∅)
      upstreamTLSMode := effectiveUpstreamTLSMode (f.upstreamTLSModes[tenant]?.getD "")
      eastWestEnabled := f.eastWestEnabled[tenant]?.getD false
      eastWestAllowUnmatched := f.eastWestAllowUnmatched[tenant]?.getD false
      eastWestRules := f.eastWestRules[tenant]?.getD []
      eastWestMaxGrantTTL := f.eastWestMaxGrantTTL[tenant]?.getD 0
      serverInitiatedEnabled := f.serverInitiatedEnabled[tenant]?.getD false
      legacyExceptions := f.legacyExceptions[tenant]?.getD []
      tenantRestrictionRuleStatus :=
        if f.tenantRestrictionRuleStatus.isEmpty then none else some f.tenantRestrictionRuleStatus }

def configuredProviders (settings : Map Setting) : List (Provider × Setting) :=
  providers.filterMap fun p => settings[p.id]?.map (p,·)

/-- The header rules and catalog entries of every tenant's settings, after those of the base bundle. -/
def compileTenantRestrictions (restrictions : Rows Setting) (bundle : PolicyBundle) : PolicyBundle :=
  { bundle with
    swgTenantRestrictionRules := bundle.swgTenantRestrictionRules ++
      restrictions.toList.flatMap fun e => (configuredProviders e.2).map fun c => rule e.1 c.1 c.2
    saasCatalog := bundle.saasCatalog ++
      restrictions.toList.flatMap fun e => (configuredProviders e.2).map fun c => catalog e.1 c.1 }

def overrideRuleStatus (statuses : Map String) (r : SWGTenantRestrictionRule) : SWGTenantRestrictionRule :=
  match statuses[r.id]? with
  | some status => { r with status := status }
  | none => r

def mergeCompiled (policies compiled : List Policy) : List Policy :=
  compiled.foldl (fun merged p =>
    if merged.any fun q => q.tenantID == p.tenantID && q.id == p.id then merged else merged ++ [p]) policies

def Store.runtimeEvaluator (s : Store) (base : Evaluator) : Evaluator :=
  let bundle := compileTenantRestrictions s.runtime.saasTenantRestrictions base.policyBundle
  let tenant := trimSpace bundle.tenantID
  let rules := s.runtime.eastWestRules[tenant]?.getD [] ++ s.compiledEastWestRules[tenant]?.getD []
  let grants := s.eastWestGrants[tenant]?.getD []
  { policies := mergeCompiled s.cachedPolicies (s.compiledPolicies.toList.flatMap Prod.snd)
    policyBundle := { bundle with
      swgTenantRestrictionRules :=
        bundle.swgTenantRestrictionRules.map (overrideRuleStatus s.runtime.tenantRestrictionRuleStatus) }
    eastWest :=
      { enabled := base.eastWest.enabled || s.runtime.eastWestEnabled[tenant]?.getD false
        allowUnmatched := s.runtime.eastWestAllowUnmatched[tenant]?.getD false
        internalNetworks := s.eastWestInternalNetworks[tenant]?.getD {}
        -- having no rules or grants keeps those of the base
        rules := if rules = [] then base.eastWest.rules else rules
        maxGrantTTLSeconds := s.runtime.eastWestMaxGrantTTL[tenant]?.getD 0
        grants := if grants = [] then base.eastWest.grants else grants }
    -- a tenant without an entry keeps the configuration of the base
    serverInitiatedEnabled := s.runtime.serverInitiatedEnabled[tenant]?.getD base.serverInitiatedEnabled
    legacyExceptions := (s.runtime.legacyExceptions[tenant]?.map legacyExceptionsFromModel).getD
      base.legacyExceptions }

variable {p : Policy}

theorem mem_flattenPolicies {m : Rows Policy} : p ∈ flattenPolicies m ↔ ∃ tenant id, m.find tenant id = some p := by
  simp only [flattenPolicies,mem_flatMap,mem_map,Prod.exists,exists_eq_right,Rows.find,
    Option.bind_eq_bind,Option.bind_eq_some_iff,Std.ExtTreeMap.mem_toList_iff_getElem?_eq_some]
  grind

theorem mem_snapshot {s : Store} {tenant : String} (ht : trimSpace tenant = tenant) (hne : tenant ≠ "") :
    p ∈ s.snapshot tenant ↔
      (∃ id, s.policies.find tenant id = some p) ∨ p ∈ s.compiledPolicies[tenant]?.getD [] := by
  simp only [Store.snapshot,ht,hne,if_false,sortPolicies,mem_sliceStable,mem_append,mem_map,Prod.exists,
    exists_eq_right,Std.ExtTreeMap.mem_toList_iff_getElem?_eq_some,Rows.find_eq]

variable {policies compiled : List Policy}

theorem mem_mergeCompiled_of_mem (h : p ∈ mergeCompiled policies compiled) : p ∈ policies ∨ p ∈ compiled := by
  refine foldlRecOn (motive := fun l => p ∈ l → p ∈ policies ∨ p ∈ compiled) compiled _ .inl ?_ h
  intro l hl q hq h
  split at h
  · exact hl h
  rcases mem_append.mp h with h | h
  · exact hl h
  · exact .inr (mem_singleton.mp h ▸ hq)

theorem subset_mergeCompiled (policies compiled : List Policy) : policies ⊆ mergeCompiled policies compiled := by
  refine foldlRecOn (motive := (policies ⊆ ·)) compiled _ (List.Subset.refl _) fun l hl q _ => ?_
  split
  · exact hl
  · exact List.Subset.trans hl (subset_append_left _ _)

theorem mem_mergeCompiled (hp : p ∈ compiled)
    (hpolicies : ∀ q ∈ policies, q.tenantID = p.tenantID → q.id = p.id → q = p)
    (hcompiled : ∀ q ∈ compiled, q.tenantID = p.tenantID → q.id = p.id → q = p) :
    p ∈ mergeCompiled policies compiled := by
  induction compiled generalizing policies with
  | nil => simp at hp
  | cons q compiled ih =>
    rcases mem_cons.mp hp with rfl | hp
    · -- either it is added now or its place is taken by itself
      have hhead : p ∈ if policies.any fun q => q.tenantID == p.tenantID && q.id == p.id then policies
          else policies ++ [p] := by
        split
        · rename_i h
          obtain ⟨q, hq, hkey⟩ := any_eq_true.mp h
          simp only [Bool.and_eq_true,beq_iff_eq] at hkey
          exact hpolicies q hq hkey.1 hkey.2 ▸ hq
        · simp
      exact subset_mergeCompiled _ compiled hhead
    · rw [mergeCompiled,foldl_cons]
      refine ih hp (fun r hr ht hid => ?_) fun r hr => hcompiled r (mem_cons_of_mem _ hr)
      split at hr
      · exact hpolicies r hr ht hid
      rcases mem_append.mp hr with hr | hr
      · exact hpolicies r hr ht hid
      rw [mem_singleton] at hr
      subst hr
      exact hcompiled r mem_cons_self ht hid

end DsseCore.PolicyStore
