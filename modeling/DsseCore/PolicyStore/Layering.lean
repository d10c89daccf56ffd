import DsseCore.PolicyStore.Steps

/-!
# The layers stay in step

In every state of every run the policies of a store are its base policies under its overlay, and the cache is
their sorted list.  What an operation changes is published under a new generation, and an operation that fails
changes nothing.
-/

namespace DsseCore.PolicyStore

open Go Model Decision TenantRestriction Lib Store

variable {f f' : RuntimeState} {s : Store} {document : Option RuntimeState} {op : Operation}

theorem find_reencode (h : reencode f = some f') (t id : String) :
    f'.adminAuthoredPolicies.find t id = (f.adminAuthoredPolicies.find t id).map reencodePolicy ∧
      f'.policyStatusOverride = f.policyStatusOverride := by
  unfold reencode at h
  split_ifs at h
  cases h
  refine ⟨?_,rfl⟩
  simp only [Rows.find,Std.ExtTreeMap.getElem?_map]
  cases f.adminAuthoredPolicies[t]? with
  | none => rfl
  | some rows => exact Std.ExtTreeMap.getElem?_map

theorem keyed_reencode (hf : f.Keyed) (h : reencode f = some f') : f'.Keyed := by
  intro tenant id p hp
  rw [(find_reencode h tenant id).1,Option.map_eq_some_iff] at hp
  obtain ⟨q, hq, rfl⟩ := hp
  exact hf tenant id q hq

theorem keyed_edited (hf : f.Keyed) (h : Edited f f') : f'.Keyed := by
  cases h with
  | upsert h =>
    intro tenant id q hq
    rw [Rows.find_put] at hq
    split_ifs at hq with hk
    · cases hq
      exact hk
    · exact hf tenant id q hq
  | delete tenant id =>
    intro t i q hq
    rw [Rows.find_remove] at hq
    split_ifs at hq
    exact hf t i q hq
  | status tenant id h => exact hf
  | ruleStatuses statuses => exact hf
  | other ha =>
    intro tenant id q hq
    rw [ha] at hq
    exact hf tenant id q hq

theorem keyed_stable : Stable RuntimeState.Keyed where
  empty tenant id p h := by simp [Rows.find] at h
  reencode _ _ := keyed_reencode
  edited _ _ := keyed_edited
  config _ _ _ hf _ _ := hf

theorem adminPolicyLess_strictWeak : StrictWeak adminPolicyLess := by
  have hiff : ∀ p q, adminPolicyLess p q = true ↔ toLex (p.priority,p.id) < toLex (q.priority,q.id) := by
    intro p q
    unfold adminPolicyLess
    rw [Prod.Lex.toLex_lt_toLex]
    by_cases hp : p.priority = q.priority <;> simp [hp]
  constructor
  · intro p q h
    rw [Bool.eq_false_iff,Ne,hiff,not_lt]
    exact ((hiff p q).mp h).le
  intro p q r hpq hqr
  rw [Bool.eq_false_iff,Ne,hiff,not_lt] at *
  exact hpq.trans hqr

/-- Each policy in force is the authored or else the base policy under its status override, and the cache lists the
policies in force, sorted. -/
structure Store.Layered (s : Store) : Prop where
  effective : ∀ tenant id, s.policies.find tenant id = effectivePolicy s.runtimeBasePolicies s.runtime tenant id
  flattened : s.cachedPolicies.Perm (flattenPolicies s.policies)
  sorted : s.cachedPolicies.Pairwise fun p q => adminPolicyLess q p = false

theorem Store.Layered.of_rebuild
    (h : ∀ tenant id, s.policies.find tenant id = effectivePolicy s.runtimeBasePolicies s.runtime tenant id) :
    s.rebuildPolicyCache.Layered :=
  ⟨h,sliceStable_perm _,pairwise_sliceStable adminPolicyLess_strictWeak _⟩

theorem layered_adoptRuntime (s : Store) (hf : f.Keyed) : (s.adoptRuntime f).Layered :=
  .of_rebuild fun tenant id => find_layeredPolicies hf s.runtimeBasePolicies tenant id

theorem layered_publish (s : Store) (hf : f.Keyed) : (s.publish f).Layered :=
  have h := layered_adoptRuntime s hf
  ⟨h.effective,h.flattened,h.sorted⟩

theorem layered_newStore (seed : List Policy) (now : Time) : (newStore seed now).Layered := by
  refine .of_rebuild fun tenant id => ?_
  simp [effectivePolicy,Rows.find]

theorem layered_replacePolicies (hs : s.Layered) (hk : s.runtime.Keyed) (tenant : String) (policies : List Policy)
    (now : Time) (t id : String) : (s.replacePolicies tenant policies now).policies.find t id =
      effectivePolicy (s.replacePolicies tenant policies now).runtimeBasePolicies s.runtime t id := by
  simp only [replacePolicies]
  rw [find_reapplyRuntimeOverlays hk,effectivePolicy]
  by_cases ht : tenant = t
  · subst ht
    simp [Rows.find]
  have hpolicies := hs.effective t id
  simp only [effectivePolicy,Rows.find] at hpolicies
  simp [ht,Rows.find,Map.getElem?_insert_eq,hpolicies]

theorem layered_applyBundle (hs : s.Layered) (hk : s.runtime.Keyed) (tenant : String) (policies : List Policy)
    (cfg : TenantConfigBundle) (now : Time) : (s.applyBundle tenant policies cfg now).Layered := by
  simp only [applyBundle]
  split
  · exact hs
  · -- the distributed controls do not touch authored policies or overrides
    exact .of_rebuild fun t id => layered_replacePolicies hs hk _ policies now t id

theorem layered_perform (outcome : Outcome) (op : Operation) (hs : s.Layered) (hk : s.runtime.Keyed)
    (hd : ∀ f, document = some f → f.Keyed) : (s.perform document outcome op).store.Layered := by
  cases op with
  | newStore seed persister now =>
    have hnew := layered_newStore seed now
    simp only [perform,setRuntimeStatePersister]
    split
    · exact ⟨hnew.effective,hnew.flattened,hnew.sorted⟩
    split
    · exact hnew
    cases document with
    | none => exact ⟨hnew.effective,hnew.flattened,hnew.sorted⟩
    | some f =>
      have h := layered_adoptRuntime { newStore seed now with persister := persister } (hd f rfl)
      exact ⟨h.effective,h.flattened,h.sorted⟩
  | change c =>
    have hresult := change_result s document outcome c
    rw [perform]
    generalize s.change document outcome c = u at hresult ⊢
    cases hresult with
    | idle | unreported => exact hs
    | published h | unconfirmed h => exact layered_publish s (keyed_stable.next hk hd h)
  | replaceTenant tenant policies now =>
    simp only [perform,replaceTenant]
    split
    · exact hs
    · exact .of_rebuild fun t id => layered_replacePolicies hs hk _ policies now t id
  | applyBundle tenant policies cfg now => exact layered_applyBundle hs hk tenant policies cfg now
  | setCompiledPolicies tenant policies => exact ⟨hs.effective,hs.flattened,hs.sorted⟩
  | refreshSharedRuntime =>
    have hresult := refreshSharedRuntime_result s document outcome
    rw [perform]
    generalize s.refreshSharedRuntime document outcome = u at hresult ⊢
    cases hresult with
    | unavailable => exact hs
    | current => exact ⟨hs.effective,hs.flattened,hs.sorted⟩
    | adopted hf =>
      have h := layered_adoptRuntime s (hd _ hf)
      exact ⟨h.effective,h.flattened,h.sorted⟩

/-- What the evaluator can be built from: the store without its bookkeeping. -/
def Store.evaluated (s : Store) : Store :=
  { s with persister := .none, runtimeAuthorityKnown := false, generation := 0 }

def Operation.creates : Operation → Bool
  | .newStore .. => true
  | _ => false

theorem perform_generation {outcome : Outcome} (hop : op.creates = false) :
    (s.perform document outcome op).store.generation = s.generation + 1 ∨
      (s.perform document outcome op).store.evaluated = s.evaluated := by
  cases op with
  | newStore => cases hop
  | change c =>
    have hresult := change_result s document outcome c
    rw [perform]
    generalize s.change document outcome c = u at hresult ⊢
    cases hresult with
    | idle | unreported => exact .inr rfl
    | published | unconfirmed => exact .inl rfl
  | replaceTenant tenant policies now =>
    simp only [perform,replaceTenant]
    split
    · exact .inr rfl
    · exact .inl rfl
  | applyBundle tenant policies cfg now =>
    simp only [perform,applyBundle]
    split
    · exact .inr rfl
    · exact .inl rfl
  | setCompiledPolicies tenant policies => exact .inl rfl
  | refreshSharedRuntime =>
    have hresult := refreshSharedRuntime_result s document outcome
    rw [perform]
    generalize s.refreshSharedRuntime document outcome = u at hresult ⊢
    cases hresult with
    | unavailable | current => exact .inr rfl
    | adopted => exact .inl rfl

theorem perform_error {outcome : Outcome} {e : StoreError} (hop : op.creates = false)
    (h : (s.perform document outcome op).result = .error e) :
    (s.perform document outcome op).store = s ∨ s.persister = .file ∧ outcome = .unconfirmed := by
  cases op with
  | newStore => cases hop
  | change c =>
    have hresult := change_result s document outcome c
    rw [perform] at h ⊢
    generalize s.change document outcome c = u at hresult h ⊢
    cases hresult with
    | idle | unreported => exact .inl rfl
    | published => cases h
    | unconfirmed _ hp ho => exact .inr ⟨hp,ho⟩
  | replaceTenant | applyBundle | setCompiledPolicies => cases h
  | refreshSharedRuntime =>
    have hresult := refreshSharedRuntime_result s document outcome
    rw [perform] at h ⊢
    generalize s.refreshSharedRuntime document outcome = u at hresult h ⊢
    cases hresult with
    | unavailable => exact .inl rfl
    | current | adopted => cases h

section Runs

variable {ι : Type} [DecidableEq ι] {σ : System ι}

theorem layered_step {σ' : System ι} {l : Label ι} (hk : σ.Documents RuntimeState.Keyed)
    (h : ∀ i, (σ.stores i).Layered) (hl : Step σ l σ') (i : ι) : (σ'.stores i).Layered := by
  cases l with
  | lose j p =>
    subst hl
    cases p <;> exact h i
  | run j op outcome =>
    subst hl
    simp only [System.perform,Function.update_apply]
    split
    · exact layered_perform outcome op (h j) (hk.stores j) (hk.document j _)
    · exact h i

theorem layered_of_run {ls : List (Label ι)} (h : Run Step System.initial ls σ) :
    σ.Documents RuntimeState.Keyed ∧ ∀ i, (σ.stores i).Layered := by
  refine h.inv (P := fun σ => σ.Documents RuntimeState.Keyed ∧ ∀ i, (σ.stores i).Layered)
    ⟨keyed_stable.kept.initial,fun i => ?_⟩ fun s l t hs hl =>
      ⟨keyed_stable.kept.step hs.1 hl,fun i => layered_step hs.1 hs.2 hl i⟩
  exact ⟨fun _ _ => by simp [System.initial,effectivePolicy,Rows.find],.refl _,.nil⟩

/-- In every state of every run the layers are in step, a change of the evaluated configuration is published under a
later generation, and a failed operation changes nothing. -/
theorem layering_of_run {ls : List (Label ι)} {σ : System ι} (h : Run Step System.initial ls σ) :
    (∀ i, (σ.stores i).Layered) ∧ ∀ i op outcome, op.creates = false →
      ((σ.update i op outcome).store.evaluated ≠ (σ.stores i).evaluated →
        (σ.stores i).generation < (σ.update i op outcome).store.generation) ∧
      ∀ e, (σ.update i op outcome).result = .error e →
        (σ.update i op outcome).store = σ.stores i ∨
          (σ.stores i).persister = .file ∧ outcome = .unconfirmed := by
  constructor
  · exact (layered_of_run h).2
  intro i op outcome hop
  refine ⟨fun hne => ?_,fun e he => perform_error hop he⟩
  rcases perform_generation hop with hgen | heq
  · exact hgen ▸ Nat.lt_succ_self _
  · exact absurd heq hne

def blockChange : Change :=
  .upsert { id := "p1", conditions := .ofEntries [("fqdn",.str "a.example")], action := ⟨"deny"⟩, status := "active" }
    "acme" 0

/-- One store authors a policy in the shared row and the other takes it over. -/
def twoStores : System Bool :=
  (((System.initial.perform false (.newStore [] .shared 0) .saved).perform true (.newStore [] .shared 0) .saved).perform
    false (.change blockChange) .saved).perform true .refreshSharedRuntime .saved

theorem layering_of_run_twoStores : ((twoStores.stores true).policies.find "acme" "p1").isSome ∧
    (twoStores.stores true).Layered ∧
    (twoStores.update true (.change (.policyStatus "acme" "p1" "disabled")) .failed).store = twoStores.stores true := by
  have hrun : Run Step System.initial [.run false (.newStore [] .shared 0) .saved,
      .run true (.newStore [] .shared 0) .saved,.run false (.change blockChange) .saved,
      .run true .refreshSharedRuntime .saved] twoStores :=
    ((((Run.nil System.initial).snoc rfl).snoc rfl).snoc rfl).snoc rfl
  refine ⟨by decide +kernel,(layering_of_run hrun).1 true,?_⟩
  rcases ((layering_of_run hrun).2 true (.change (.policyStatus "acme" "p1" "disabled")) .failed rfl).2
    .persistence (by decide +kernel) with h | h
  · exact h
  · exact absurd h.2 (by decide)

end Runs

end DsseCore.PolicyStore
