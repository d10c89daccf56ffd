import DsseCore.PolicyStore.Store

/-!
# What the layers of the policy store amount to

Lookups in the layered policies, computed from lookups in the base, the authored policies and the overrides.
-/

namespace DsseCore.PolicyStore

open Go Model Decision TenantRestriction

def withStatus (override : Option String) (p : Policy) : Policy :=
  match override with
  | some status => { p with status := status }
  | none => p

@[simp] theorem withStatus_none : withStatus none = id := rfl

@[simp] theorem withStatus_withStatus (override : Option String) (p : Policy) :
    withStatus override (withStatus override p) = withStatus override p := by
  cases override <;> rfl

/-- The policy that is in force: the authored one before the base one, under its override. -/
def effectivePolicy (base : Rows Policy) (f : RuntimeState) (tenant id : String) : Option Policy :=
  ((f.adminAuthoredPolicies.find tenant id).or (base.find tenant id)).map
    (withStatus (f.policyStatusOverride.find tenant id))

/-- Authored policies stand under their own tenant and ID. -/
def RuntimeState.Keyed (f : RuntimeState) : Prop :=
  ∀ tenant id p, f.adminAuthoredPolicies.find tenant id = some p → p.tenantID = tenant ∧ p.id = id

theorem Rows.find_eq {α : Type} (m : Rows α) (tenant id : String) :
    m.find tenant id = (m[tenant]?.getD ∅)[id]? := by
  unfold Rows.find
  cases m[tenant]? <;> simp

theorem getElem?_overrideStatuses (rows : Map Policy) (overrides : Map String) (id : String) :
    (overrideStatuses rows overrides)[id]? = rows[id]?.map (withStatus overrides[id]?) := by
  unfold overrideStatuses
  rw [Map.foldl_toList_obs (fun (m : Map Policy) k => m[k]?) _
    (fun _ status p => p.map (withStatus (some status)))]
  · cases overrides[id]? with
    | none => simp
    | some status => rfl
  intro m a status _ k
  cases hm : m[a]? with
  | none =>
    by_cases hk : a = k
    · subst hk
      simp [hm]
    · simp [hk]
  | some p =>
    simp only [Map.getElem?_insert_eq]
    by_cases hk : a = k
    · subst hk
      simp [hm,withStatus]
    · simp [hk]

theorem find_overrideTenant (m : Rows Policy) (tenant : String) (overrides : Map String) (t id : String) :
    (overrideTenant m tenant overrides).find t id =
      if tenant = t then (m.find t id).map (withStatus overrides[id]?) else m.find t id := by
  unfold overrideTenant Rows.find
  cases hm : m[tenant]? with
  | none =>
    by_cases ht : tenant = t
    · subst ht
      simp [hm]
    · simp [ht]
  | some rows =>
    simp only [Map.getElem?_insert_eq]
    by_cases ht : tenant = t
    · subst ht
      simp [hm,getElem?_overrideStatuses]
    · simp [ht]

theorem find_foldl_putPolicy {tenant : String} {rows : Map Policy}
    (hkeyed : ∀ (id : String) (p : Policy), rows[id]? = some p → p.tenantID = tenant ∧ p.id = id) (m : Rows Policy)
    (t id : String) :
    (rows.toList.foldl (fun m e => putPolicy m e.2) m).find t id =
      if tenant = t then rows[id]?.or (m.find t id) else m.find t id := by
  have h := Map.foldl_toList_obs (fun (m : Rows Policy) k => fun t => m.find t k)
    (fun m e => putPolicy m e.2) (fun _ p find t => if tenant = t then some p else find t) rows
    (fun m a p hp k => by
      obtain ⟨htenant, hid⟩ := hkeyed a p hp
      funext t
      rw [putPolicy,Rows.find_put,htenant,hid]
      by_cases hk : a = k
      · subst hk
        simp
      · simp [hk]) m id
  rw [congrFun h t]
  cases rows[id]? <;> simp

theorem find_reapplyRuntimeOverlays {f : RuntimeState} (hf : f.Keyed) (tenant : String) (m : Rows Policy)
    (t id : String) :
    (reapplyRuntimeOverlays f tenant m).find t id =
      if tenant = t then
        ((f.adminAuthoredPolicies.find t id).or (m.find t id)).map (withStatus (f.policyStatusOverride.find t id))
      else m.find t id := by
  have hkeyed : ∀ (id : String) (p : Policy), (f.adminAuthoredPolicies[tenant]?.getD ∅)[id]? = some p →
      p.tenantID = tenant ∧ p.id = id :=
    fun id p hp => hf tenant id p (by rw [Rows.find_eq]; exact hp)
  rw [reapplyRuntimeOverlays,find_overrideTenant,find_foldl_putPolicy hkeyed]
  by_cases ht : tenant = t
  · subst ht
    simp only [if_true,Rows.find_eq]
  · simp [ht]

theorem find_applyPolicyStatusOverrides (f : RuntimeState) (m : Rows Policy) (t id : String) :
    (applyPolicyStatusOverrides f m).find t id =
      (m.find t id).map (withStatus (f.policyStatusOverride.find t id)) := by
  have h := Map.foldl_toList_obs (fun (m : Rows Policy) t => fun id => m.find t id)
    (fun m e => overrideTenant m e.1 e.2) (fun _ o find id => (find id).map (withStatus o[id]?))
    f.policyStatusOverride (fun m a o _ k => by
      funext id
      rw [find_overrideTenant]
      by_cases hk : a = k <;> simp [hk]) m t
  rw [applyPolicyStatusOverrides,congrFun h id]
  cases ho : f.policyStatusOverride[t]? with
  | none =>
    have hnone : f.policyStatusOverride.find t id = none := by simp [Rows.find,ho]
    rw [hnone,withStatus_none,Option.map_id]
    rfl
  | some o =>
    have hsome : f.policyStatusOverride.find t id = o[id]? := by simp [Rows.find,ho]
    rw [hsome]
    rfl

theorem find_layeredPolicies {f : RuntimeState} (hf : f.Keyed) (base : Rows Policy) (t id : String) :
    (layeredPolicies base f).find t id = effectivePolicy base f t id := by
  have h := Map.foldl_toList_obs (fun (m : Rows Policy) t => fun id => m.find t id)
    (fun m e => reapplyRuntimeOverlays f e.1 m)
    (fun t _ find id =>
      ((f.adminAuthoredPolicies.find t id).or (find id)).map (withStatus (f.policyStatusOverride.find t id)))
    f.adminAuthoredPolicies (fun m a _ _ k => by
      funext id
      rw [find_reapplyRuntimeOverlays hf]
      by_cases hk : a = k <;> simp [hk]) base t
  rw [layeredPolicies,find_applyPolicyStatusOverrides,congrFun h id,effectivePolicy]
  cases ha : f.adminAuthoredPolicies[t]? with
  | none =>
    have hnone : f.adminAuthoredPolicies.find t id = none := by simp [Rows.find,ha]
    rw [hnone]
    rfl
  | some rows =>
    -- a tenant with authored policies gets its overrides twice
    rw [Option.elim_some,Option.map_map]
    congr 1
    funext p
    exact withStatus_withStatus _ p

end DsseCore.PolicyStore
