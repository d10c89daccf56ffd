import DsseCore.PolicyRule.Egress
import DsseCore.PolicyStore.Deliverable

/-!
# Policies under their owners

Authored, seeded and received policies stand under their owner and ID and are deliverable; policies compiled from
rules need not be.
-/

namespace DsseCore.PolicyStore

open Go Model Decision TenantRestriction PolicyRule

variable {p : Policy} {tenant : String} {f f' : RuntimeState} {m : Rows Policy}

/-- Policies that stand under their trimmed owner and their ID, and are deliverable. -/
def Rows.Admitted (m : Rows Policy) : Prop :=
  ∀ tenant id p, m.find tenant id = some p →
    p.tenantID = tenant ∧ p.id = id ∧ trimSpace tenant = tenant ∧ tenant ≠ "" ∧ Deliverable p

structure RuntimeState.Admissible (f : RuntimeState) : Prop where
  authored : f.adminAuthoredPolicies.Admitted
  overrides : ∀ tenant id status, f.policyStatusOverride.find tenant id = some status →
    validAdminPolicyStatus status = true
  settings : ∀ tenant settings, f.saasTenantRestrictions[tenant]? = some settings → settings.isEmpty = false →
    trimSpace tenant = tenant ∧ tenant ≠ ""

theorem admitted_empty : (∅ : Rows Policy).Admitted := by
  intro tenant id p h
  simp [Rows.find] at h

theorem Rows.Admitted.put (hm : m.Admitted) {item : Policy} {now : Time}
    (h : normalizeAdminPolicy item tenant now = .ok p) : (m.put p.tenantID p.id p).Admitted := by
  obtain ⟨hp, howner, hne⟩ := normalizeAdminPolicy_deliverable h
  intro t id q hq
  rw [Rows.find_put] at hq
  split_ifs at hq with hk
  · obtain ⟨rfl, rfl⟩ := hk
    cases hq
    exact ⟨rfl,rfl,howner ▸ trimSpace_trimSpace tenant,hne,hp⟩
  · exact hm t id q hq

theorem RuntimeState.Admissible.keyed (hf : f.Admissible) : f.Keyed :=
  fun tenant id p h => ⟨(hf.authored tenant id p h).1,(hf.authored tenant id p h).2.1⟩

theorem admissible_reencode (hf : f.Admissible) (h : reencode f = some f') : f'.Admissible := by
  have hfind := fun tenant id => (find_reencode h tenant id).1
  unfold reencode at h
  split_ifs at h
  cases h
  refine ⟨fun tenant id p hp => ?_,hf.overrides,hf.settings⟩
  rw [hfind,Option.map_eq_some_iff] at hp
  obtain ⟨q, hq, rfl⟩ := hp
  obtain ⟨h1, h2, h3, h4, h5⟩ := hf.authored tenant id q hq
  exact ⟨h1,h2,h3,h4,{ h5 with conditions := by simpa [reencodePolicy] using h5.conditions }⟩

theorem admissible_edited (hf : f.Admissible) (h : Edited f f') : f'.Admissible := by
  cases h with
  | upsert h => exact ⟨hf.authored.put h,hf.overrides,hf.settings⟩
  | delete tenant id =>
    refine ⟨fun t i p hp => ?_,fun t i status hs => ?_,hf.settings⟩
    · rw [Rows.find_remove] at hp
      split_ifs at hp
      exact hf.authored t i p hp
    rw [Rows.find_remove] at hs
    split_ifs at hs
    exact hf.overrides t i status hs
  | status tenant id h =>
    refine ⟨hf.authored,fun t i status hs => ?_,hf.settings⟩
    rw [Rows.find_put] at hs
    split_ifs at hs
    · cases hs
      rcases h with rfl | rfl <;> rfl
    · exact hf.overrides t i status hs
  | ruleStatuses statuses => exact ⟨hf.authored,hf.overrides,hf.settings⟩
  | other ha ho hr hs =>
    refine ⟨ha ▸ hf.authored,ho ▸ hf.overrides,fun k settings hk hsome => ?_⟩
    rcases hs k settings hk hsome with h | h
    · exact hf.settings k settings h hsome
    · exact h

theorem admissible_stable : Stable RuntimeState.Admissible where
  empty := ⟨admitted_empty,by simp [Rows.find],by simp⟩
  reencode _ _ := admissible_reencode
  edited _ _ := admissible_edited
  config f tenant cfg hf ht hne := by
    refine ⟨hf.authored,hf.overrides,fun k settings hk hsome => ?_⟩
    simp only [applyTenantConfig] at hk
    cases hcfg : cfg.saasTenantRestrictions with
    | none =>
      rw [hcfg] at hk
      exact hf.settings k settings hk hsome
    | some restrictions =>
      rw [hcfg,setIfGiven,Map.getElem?_insert_eq] at hk
      split at hk
      · rename_i hkey
        exact hkey ▸ ⟨ht,hne⟩
      · exact hf.settings k settings hk hsome

theorem admitted_effective {base : Rows Policy} (hbase : base.Admitted) (hf : f.Admissible) {id : String}
    (h : effectivePolicy base f tenant id = some p) :
    p.tenantID = tenant ∧ p.id = id ∧ trimSpace tenant = tenant ∧ tenant ≠ "" ∧ Deliverable p := by
  obtain ⟨q, hq, rfl⟩ := Option.map_eq_some_iff.mp h
  have hadmitted : q.tenantID = tenant ∧ q.id = id ∧ trimSpace tenant = tenant ∧ tenant ≠ "" ∧ Deliverable q := by
    rcases Option.or_eq_some_iff.mp hq with hq | hq
    · exact hf.authored tenant id q hq
    · exact hbase tenant id q hq.2
  cases ho : f.policyStatusOverride.find tenant id with
  | none => exact hadmitted
  | some status =>
    obtain ⟨h1, h2, h3, h4, h5⟩ := hadmitted
    exact ⟨h1,h2,h3,h4,{ h5 with status := hf.overrides tenant id status ho }⟩

variable {now : Time} {policies : List Policy}

theorem getElem?_freshPolicies {id : String} {q : Policy} (h : (freshPolicies tenant policies now)[id]? = some q) :
    q.id = id ∧ ∃ p ∈ policies, normalizeAdminPolicy { p with tenantID := tenant } tenant now = .ok q := by
  refine List.foldlRecOn (motive := fun m : Map Policy => m[id]? = some q → q.id = id ∧ ∃ p ∈ policies,
    normalizeAdminPolicy { p with tenantID := tenant } tenant now = .ok q) policies (receivePolicy tenant now) (b := ∅) (by simp) ?_ h
  intro m hm p hp h
  unfold receivePolicy at h
  split at h
  · rename_i normalized hnormalized
    rw [Map.getElem?_insert_eq] at h
    split at h
    · rename_i hid
      cases h
      exact ⟨hid,p,hp,hnormalized⟩
    · exact hm h
  · exact hm h

theorem freshPolicies_of_mem {q : Policy} (hp : p ∈ policies)
    (hq : normalizeAdminPolicy { p with tenantID := tenant } tenant now = .ok q)
    (hunique : ∀ p' ∈ policies, ∀ q', normalizeAdminPolicy { p' with tenantID := tenant } tenant now = .ok q' → q'.id = q.id → q' = q) :
    (freshPolicies tenant policies now)[q.id]? = some q := by
  refine Map.foldl_of_mem (P := fun _ => True) (Q := fun m => m[q.id]? = some q) hp trivial (fun _ _ _ _ => trivial)
    (fun m _ h p' hp' => ?_) fun m _ => by simp [receivePolicy,hq]
  -- a later policy with this ID would be the same one
  unfold receivePolicy
  split
  · rename_i q' hq'
    rw [Map.getElem?_insert_eq]
    split
    · rename_i hid
      rw [hunique p' hp' q' hq' hid]
    · exact h
  · exact h

theorem Rows.Admitted.insert_fresh (hm : m.Admitted) (ht : trimSpace tenant = tenant) :
    Rows.Admitted (m.insert tenant (freshPolicies tenant policies now)) := by
  intro t id q hq
  by_cases h : tenant = t
  · subst h
    simp only [Rows.find,Std.ExtTreeMap.getElem?_insert_self] at hq
    obtain ⟨hid, p, _, hp⟩ := getElem?_freshPolicies hq
    obtain ⟨hdeliverable, howner, hne⟩ := normalizeAdminPolicy_deliverable hp
    rw [ht] at howner
    exact ⟨howner,hid,ht,howner ▸ hne,hdeliverable⟩
  · exact hm t id q (by simpa [Rows.find,Map.getElem?_insert_eq,h] using hq)

structure CompiledFor (owner : String) (p : Policy) : Prop where
  owner : trimSpace p.tenantID = owner
  id_ne : p.id ≠ ""
  status : p.status = "active"
  decision : validAdminPolicyDecision p.action.decision = true
  lists : ∀ l ∈ otherLists p, l = []

theorem compiledFor_egressPolicy (tenant : String) (r : Rule) {decision : String}
    (hd : validAdminPolicyDecision decision = true) (suffix : String) (conditions : Conditions) :
    CompiledFor (trimSpace tenant) (egressPolicy tenant r decision suffix conditions) := by
  refine ⟨rfl,fun h => ?_,rfl,hd,?_⟩
  · have hlength := congrArg String.length h
    simp [egressPolicy] at hlength
  · simp [otherLists,egressPolicy]

theorem compiledFor_of_mem {rules : List Rule} {resolver : EgressResolver}
    (h : p ∈ compileEgressPolicies tenant rules resolver) : CompiledFor (trimSpace tenant) p := by
  obtain ⟨r, _, hr⟩ := List.mem_flatMap.mp h
  unfold compileEgressRule at hr
  split at hr
  · simp at hr
  split at hr
  · simp at hr
  rename_i decision hd
  obtain ⟨host, _, hhost⟩ := List.mem_flatMap.mp hr
  obtain ⟨source, _, hsource⟩ := List.mem_flatMap.mp hhost
  obtain ⟨transport, _, rfl⟩ := List.mem_map.mp hsource
  refine compiledFor_egressPolicy tenant r ?_ _ _
  unfold egressDecision at hd
  split at hd <;> cases hd <;> rfl

end DsseCore.PolicyStore
