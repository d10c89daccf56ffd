import DsseCore.PolicyStore.Admitted

/-!
# A control plane and an Edge

The control plane is changed, compiles rules and ships bundles; the Edge only receives them.
-/

namespace DsseCore.PolicyStore

open Go Model Decision TenantRestriction PolicyRule Lib

variable {next : RuntimeState} {σ : Planes} {document : Option RuntimeState}

structure Planes where
  control : Store
  document : Option RuntimeState
  edge : Store

def Planes.distribute (σ : Planes) (tenant : String) (now : Time) : Planes :=
  { σ with edge := σ.edge.applyBundle tenant (σ.control.snapshot tenant) (σ.control.snapshotTenantConfig tenant) now }

inductive PlaneLabel where
  | change (c : Change) (outcome : Outcome)
  | compile (tenant : String) (rules : List Rule) (resolver : EgressResolver)
  | distribute (tenant : String) (now : Time)

def PlaneStep (σ : Planes) (l : PlaneLabel) (σ' : Planes) : Prop :=
  match l with
  | .change c outcome =>
    let u := σ.control.change σ.document outcome c
    σ' = { σ with control := u.store, document := u.document }
  | .compile tenant rules resolver =>
    σ' = { σ with control := σ.control.setCompiledPolicies tenant (compileEgressPolicies tenant rules resolver) }
  | .distribute tenant now => σ' = σ.distribute tenant now

def Planes.initial (seed edgeSeed : List Policy) (persister : Persister) (now : Time) : Planes :=
  ⟨{ newStore seed now with persister := persister },none,newStore edgeSeed now⟩

structure Store.Sound (s : Store) : Prop where
  layered : s.Layered
  base : s.runtimeBasePolicies.Admitted
  runtime : s.runtime.Admissible

structure Store.Receiver (s : Store) : Prop where
  authored : s.runtime.adminAuthoredPolicies = ∅
  overrides : s.runtime.policyStatusOverride = ∅
  compiled : s.compiledPolicies = ∅

structure Planes.Inv (σ : Planes) : Prop where
  control : σ.control.Sound
  valid : runtimeStateValid σ.control.runtime = true
  document : ∀ f, σ.document = some f → f.Admissible
  compiled : ∀ (owner : String) (ps : List Policy), σ.control.compiledPolicies[owner]? = some ps →
    ∀ p ∈ ps, CompiledFor owner p
  edge : σ.edge.Sound
  receiver : σ.edge.Receiver
  -- rule statuses are never taken back, so an Edge has none before its control plane
  statuses : σ.edge.runtime.tenantRestrictionRuleStatus.isEmpty = false →
    σ.control.runtime.tenantRestrictionRuleStatus.isEmpty = false
  saved : ∀ f, σ.document = some f → σ.control.runtime.tenantRestrictionRuleStatus.isEmpty = false →
    f.tenantRestrictionRuleStatus.isEmpty = false
  unsaved : σ.control.persister = .none → σ.document = none

theorem Rows.Admitted.seedPolicy {m : Rows Policy} (hm : m.Admitted) (now : Time) (p : Policy) :
    (seedPolicy now m p).Admitted := by
  unfold PolicyStore.seedPolicy
  split
  · exact hm
  split
  · rename_i q hq
    exact hm.put hq
  · exact hm

theorem sound_newStore (seed : List Policy) (now : Time) : (newStore seed now).Sound :=
  ⟨layered_newStore seed now,List.foldlRecOn (motive := Rows.Admitted) seed (seedPolicy now)
    admitted_empty fun _ hm p _ => hm.seedPolicy now p,admissible_stable.empty⟩

theorem inv_initial (seed edgeSeed : List Policy) (persister : Persister) (now : Time) :
    (Planes.initial seed edgeSeed persister now).Inv := by
  have hcontrol := sound_newStore seed now
  refine ⟨⟨⟨hcontrol.layered.effective,hcontrol.layered.flattened,hcontrol.layered.sorted⟩,hcontrol.base,
    hcontrol.runtime⟩,?_,?_,?_,sound_newStore edgeSeed now,⟨rfl,rfl,rfl⟩,?_,?_,?_⟩
  · rfl
  · simp [Planes.initial]
  · simp [Planes.initial,newStore,Store.rebuildPolicyCache]
  · simp [Planes.initial,newStore,Store.rebuildPolicyCache]
  · simp [Planes.initial]
  · simp [Planes.initial]

theorem isEmpty_putStatuses {m statuses : Map String} (hm : m.isEmpty = false) :
    (putStatuses m statuses).isEmpty = false := by
  unfold putStatuses
  generalize statuses.toList = l
  induction l generalizing m with
  | nil => exact hm
  | cons e l ih => exact ih (by simp)

theorem statuses_next {s : Store} (hs : s.runtime.tenantRestrictionRuleStatus.isEmpty = false)
    (hd : ∀ f, document = some f → f.tenantRestrictionRuleStatus.isEmpty = false) (h : Next s document next) :
    next.tenantRestrictionRuleStatus.isEmpty = false := by
  have hreencode : ∀ {f f' : RuntimeState}, reencode f = some f' →
      f'.tenantRestrictionRuleStatus = f.tenantRestrictionRuleStatus := by
    intro f f' h
    unfold reencode at h
    split_ifs at h
    cases h
    rfl
  obtain ⟨current, f, hcur, he, hr⟩ := h
  have hcurrent : current.tenantRestrictionRuleStatus.isEmpty = false := by
    rcases hcur with hcur | hcur
    · exact hd _ hcur
    · rw [hreencode hcur]
      exact hs
  rw [hreencode hr]
  cases he with
  | upsert | delete | status => exact hcurrent
  | ruleStatuses statuses => exact isEmpty_putStatuses hcurrent
  | other ha ho hr => exact hr ▸ hcurrent

theorem valid_next {s : Store} (h : Next s document next) : runtimeStateValid next = true := by
  obtain ⟨_, f, _, _, hr⟩ := h
  unfold reencode at hr
  split_ifs at hr with _ hvalid
  cases hr
  exact hvalid

theorem inv_publish (hσ : σ.Inv) (h : Next σ.control σ.document next) {d : Option RuntimeState}
    (hd : d = σ.document ∧ σ.control.persister = .none ∨ d = some next ∧ σ.control.persister ≠ .none) :
    Planes.Inv { σ with control := σ.control.publish next, document := d } := by
  have hnext := admissible_stable.next hσ.control.runtime hσ.document h
  have hstatuses : σ.control.runtime.tenantRestrictionRuleStatus.isEmpty = false →
      next.tenantRestrictionRuleStatus.isEmpty = false :=
    fun hs => statuses_next hs (fun f hf => hσ.saved f hf hs) h
  refine ⟨⟨layered_publish _ hnext.keyed,hσ.control.base,hnext⟩,valid_next h,fun f hf => ?_,hσ.compiled,hσ.edge,
    hσ.receiver,fun hs => hstatuses (hσ.statuses hs),fun f hf hs => ?_,fun hp => ?_⟩
  · rcases hd with ⟨rfl, _⟩ | ⟨rfl, _⟩
    · exact hσ.document f hf
    · exact Option.some.inj hf ▸ hnext
  · rcases hd with ⟨rfl, hp⟩ | ⟨rfl, _⟩
    · simp [hσ.unsaved hp] at hf
    · exact Option.some.inj hf ▸ hs
  rcases hd with ⟨rfl, hp⟩ | ⟨rfl, hp'⟩
  · exact hσ.unsaved hp
  · exact absurd hp hp'

theorem inv_change (hσ : σ.Inv) (c : Change) (outcome : Outcome) : Planes.Inv { σ with
      control := (σ.control.change σ.document outcome c).store
      document := (σ.control.change σ.document outcome c).document } := by
  have hresult := change_result σ.control σ.document outcome c
  generalize σ.control.change σ.document outcome c = u at hresult ⊢
  cases hresult with
  | idle => exact hσ
  | unreported h hp =>
    have hnext := admissible_stable.next hσ.control.runtime hσ.document h
    refine ⟨hσ.control,hσ.valid,fun f hf => Option.some.inj hf ▸ hnext,hσ.compiled,hσ.edge,hσ.receiver,hσ.statuses,
      fun f hf hs => ?_,fun hp' => ?_⟩
    · exact Option.some.inj hf ▸ statuses_next hs (fun f hf => hσ.saved f hf hs) h
    · rw [hp] at hp'
      cases hp'
  | published h d hd => exact inv_publish hσ h hd
  | unconfirmed h hp => exact inv_publish hσ h (.inr ⟨rfl,by simp [hp]⟩)

theorem inv_compile (hσ : σ.Inv) (tenant : String) (rules : List Rule) (resolver : EgressResolver) :
    Planes.Inv { σ with
      control := σ.control.setCompiledPolicies tenant (compileEgressPolicies tenant rules resolver) } := by
  have hl := hσ.control.layered
  refine ⟨⟨⟨hl.effective,hl.flattened,hl.sorted⟩,hσ.control.base,hσ.control.runtime⟩,hσ.valid,hσ.document,
    fun owner ps h p hp => ?_,hσ.edge,hσ.receiver,hσ.statuses,hσ.saved,hσ.unsaved⟩
  simp only [Store.setCompiledPolicies] at h
  split at h
  · rw [Map.getElem?_erase_eq] at h
    split at h
    · cases h
    · exact hσ.compiled owner ps h p hp
  · rw [Map.getElem?_insert_eq] at h
    split at h
    · rename_i howner
      cases h
      exact howner ▸ compiledFor_of_mem hp
    · exact hσ.compiled owner ps h p hp

theorem inv_distribute (hσ : σ.Inv) (tenant : String) (now : Time) : (σ.distribute tenant now).Inv := by
  have hlayered := layered_applyBundle hσ.edge.layered hσ.edge.runtime.keyed tenant (σ.control.snapshot tenant)
    (σ.control.snapshotTenantConfig tenant) now
  unfold Planes.distribute
  unfold Store.applyBundle at hlayered ⊢
  simp only at hlayered ⊢
  split at hlayered
  · rename_i hskip
    rw [if_pos hskip]
    exact hσ
  rename_i happly
  rw [if_neg happly]
  rw [not_or] at happly
  have ht := trimSpace_trimSpace tenant
  refine ⟨hσ.control,hσ.valid,hσ.document,hσ.compiled,⟨hlayered,hσ.edge.base.insert_fresh ht,
    admissible_stable.config _ _ _ hσ.edge.runtime ht happly.2⟩,
    ⟨hσ.receiver.authored,hσ.receiver.overrides,hσ.receiver.compiled⟩,fun hs => ?_,hσ.saved,hσ.unsaved⟩
  cases hempty : σ.control.runtime.tenantRestrictionRuleStatus.isEmpty with
  | false => rfl
  | true =>
    refine absurd (hσ.statuses ?_) (by simp [hempty])
    simpa [Store.rebuildPolicyCache,applyTenantConfig,Store.snapshotTenantConfig,happly.2,hempty] using hs

theorem inv_of_run {seed edgeSeed : List Policy} {persister : Persister} {now : Time} {ls : List PlaneLabel}
    (h : Run PlaneStep (Planes.initial seed edgeSeed persister now) ls σ) : σ.Inv := by
  refine h.inv (inv_initial seed edgeSeed persister now) fun s l t hs hl => ?_
  cases l with
  | change c outcome =>
    cases hl
    exact inv_change hs c outcome
  | compile tenant rules resolver =>
    cases hl
    exact inv_compile hs tenant rules resolver
  | distribute tenant now =>
    cases hl
    exact inv_distribute hs tenant now

end DsseCore.PolicyStore
