import DsseCore.PolicyStore.System

/-!
# What one step of the policy stores can do

Every edit either leaves the store alone or publishes a document that was built from the saved or the store's own
one.  A property of documents that building keeps is then a property of all documents of a run.
-/

namespace DsseCore.PolicyStore

open Go Model Decision TenantRestriction

variable {f f' : RuntimeState} {tenant id : String} {base : Rows Policy} {s : Store}

section Edit

variable {α : Type} {s : Store} {raw document : Option RuntimeState} {next : RuntimeState} {outcome : Outcome}
  {edit : Edit α}

/-- `next` is an edit of the saved document or of the store's own state, as it is read back. -/
def Built (s : Store) (document : Option RuntimeState) (edit : Edit α) (next : RuntimeState) : Prop :=
  ∃ current f a, (document = some current ∨ reencode s.runtime = some current) ∧ edit current = .ok (f,a) ∧
    reencode f = some next

theorem currentDocument_eq_some {current : RuntimeState} (h : currentDocument s raw = some current) :
    raw = some current ∨ reencode s.runtime = some current := by
  cases raw with
  | some f => exact .inl h
  | none =>
    simp only [currentDocument] at h
    split_ifs at h
    exact .inr h

theorem build_some {a : α} (h : build s raw edit = .ok (next,a)) :
    ∃ current f, currentDocument s raw = some current ∧ edit current = .ok (f,a) ∧ reencode f = some next := by
  unfold build at h
  split at h
  · cases h
  next current hcurrent =>
    split at h
    · cases h
    next f b hedit =>
      split at h
      next next' hr =>
        cases h
        exact ⟨current,f,hcurrent,hedit,hr⟩
      · cases h

theorem build_ok {a : α} (h : build s raw edit = .ok (next,a)) : Built s raw edit next := by
  obtain ⟨current, f, hcurrent, hedit, hr⟩ := build_some h
  exact ⟨current,f,a,currentDocument_eq_some hcurrent,hedit,hr⟩

/-- An edit that is refused or not saved leaves the store alone, though a shared row may have been committed.  Any
other edit publishes; it still reports an error when a local save could not be confirmed. -/
inductive EditResult (s : Store) (document : Option RuntimeState) (outcome : Outcome) (edit : Edit α) :
    Update α → Prop
  | refused (e : StoreError) : EditResult s document outcome edit ⟨s,document,.error e⟩
  | unreported {next : RuntimeState} (h : Built s document edit next) (hp : s.persister = .shared) (e : StoreError) :
      EditResult s document outcome edit ⟨s,some next,.error e⟩
  | published {next : RuntimeState} (h : Built s document edit next) (d : Option RuntimeState)
      (hd : d = document ∧ s.persister = .none ∨ d = some next ∧ s.persister ≠ .none) (a : α) :
      EditResult s document outcome edit ⟨s.publish next,d,.ok a⟩
  | unconfirmed {next : RuntimeState} (h : Built s document edit next) (hp : s.persister = .file)
      (ho : outcome = .unconfirmed) (e : StoreError) :
      EditResult s document outcome edit ⟨s.publish next,some next,.error e⟩

theorem editShared_result (hp : s.persister = .shared) :
    EditResult s document outcome edit (editShared s document outcome edit) := by
  unfold editShared
  split
  · exact .refused _
  split
  · exact .refused _
  rename_i next a hb
  split
  · exact .published (build_ok hb) _ (.inr ⟨rfl,by simp [hp]⟩) a
  · exact .unreported (build_ok hb) hp _
  · exact .refused _

theorem editLocal_result (hp : s.persister ≠ .shared) :
    EditResult s document outcome edit (editLocal s document outcome edit) := by
  have hbuilt : ∀ next a, (reencode s.runtime).map (fun f => build s (some f) edit) = some (.ok (next,a)) →
      Built s document edit next := by
    intro next a h
    obtain ⟨current, hc, hb⟩ := Option.map_eq_some_iff.mp h
    obtain ⟨current', f, b, hcur, he, hr⟩ := build_ok hb
    refine ⟨current',f,b,.inr ?_,he,hr⟩
    rcases hcur with hcur | hcur
    · rw [← hcur]
      exact hc
    · exact hcur
  unfold editLocal
  split
  · exact .refused _
  · exact .refused _
  rename_i next a hb
  split
  · rename_i hnone
    exact .published (hbuilt next a hb) _ (.inl ⟨rfl,hnone⟩) a
  rename_i hnone
  have hfile : s.persister = .file := by
    cases h : s.persister with
    | none => exact absurd h hnone
    | file => rfl
    | shared => exact absurd h hp
  split
  · exact .published (hbuilt next a hb) _ (.inr ⟨rfl,hnone⟩) a
  · exact .published (hbuilt next a hb) _ (.inr ⟨rfl,hnone⟩) a
  · exact .unconfirmed (hbuilt next a hb) hfile rfl _
  · exact .refused _

theorem editRuntime_result : EditResult s document outcome edit (editRuntime s document outcome edit) := by
  unfold editRuntime
  split
  · rename_i hp
    exact editShared_result hp
  · rename_i hp
    exact editLocal_result hp

end Edit

/-- A refresh notes at most that a document exists, or adopts the document it read. -/
inductive RefreshResult (s : Store) (document : Option RuntimeState) : Update Unit → Prop
  | unavailable (e : StoreError) : RefreshResult s document ⟨s,document,.error e⟩
  | current (known : Bool) : RefreshResult s document ⟨{ s with runtimeAuthorityKnown := known },document,.ok ()⟩
  | adopted {f : RuntimeState} (hf : document = some f) : RefreshResult s document
      ⟨{ s.adoptRuntime f with generation := s.generation + 1, runtimeAuthorityKnown := true },document,.ok ()⟩

theorem refreshSharedRuntime_result (s : Store) (document : Option RuntimeState) (outcome : Outcome) :
    RefreshResult s document (s.refreshSharedRuntime document outcome) := by
  unfold Store.refreshSharedRuntime
  split
  · exact .current s.runtimeAuthorityKnown
  split
  · exact .unavailable _
  cases document with
  | none =>
    simp only
    split
    · exact .unavailable _
    · exact .current s.runtimeAuthorityKnown
  | some f =>
    simp only
    split
    · exact .current true
    · exact .adopted rfl

section Fields

variable (s : Store) (f : RuntimeState)

@[simp] theorem publish_runtime : (s.publish f).runtime = f := rfl

end Fields

/-- The documents an authored change can leave: what happens to authored policies, overrides and rule statuses. -/
inductive Edited (f : RuntimeState) : RuntimeState → Prop
  | upsert {item p : Policy} {tenant : String} {now : Time} (h : normalizeAdminPolicy item tenant now = .ok p) :
      Edited f { f with adminAuthoredPolicies := f.adminAuthoredPolicies.put p.tenantID p.id p }
  | delete (tenant id : String) : Edited f { f with
      adminAuthoredPolicies := f.adminAuthoredPolicies.remove tenant id
      policyStatusOverride := f.policyStatusOverride.remove tenant id }
  | status (tenant id : String) {status : String} (h : status = "active" ∨ status = "disabled") :
      Edited f { f with policyStatusOverride := f.policyStatusOverride.put tenant id status }
  | ruleStatuses (statuses : Map String) :
      Edited f { f with tenantRestrictionRuleStatus := putStatuses f.tenantRestrictionRuleStatus statuses }
  | other {f' : RuntimeState} (ha : f'.adminAuthoredPolicies = f.adminAuthoredPolicies)
      (ho : f'.policyStatusOverride = f.policyStatusOverride)
      (hr : f'.tenantRestrictionRuleStatus = f.tenantRestrictionRuleStatus)
      (hs : ∀ k settings, f'.saasTenantRestrictions[k]? = some settings → settings.isEmpty = false →
        f.saasTenantRestrictions[k]? = some settings ∨ trimSpace k = k ∧ k ≠ "") : Edited f f'

theorem forget_ok {α : Type} {edit : Edit α} (h : edit.forget f = .ok (f',())) :
    ∃ a, edit f = .ok (f',a) := by
  unfold Edit.forget at h
  cases he : edit f with
  | error e => simp [he,Except.map] at h
  | ok r =>
    simp only [he,Except.map,Except.ok.injEq,Prod.mk.injEq,and_true] at h
    exact ⟨r.2,by rw [← h]⟩

theorem edited_deleteEdit {a : Option Policy} (h : deleteEdit base tenant id f = .ok (f',a)) : Edited f f' := by
  unfold deleteEdit at h
  split at h
  · split_ifs at h
    cases h
    exact .other rfl rfl rfl fun _ _ h _ => .inl h
  · cases h
    exact .delete tenant id

theorem edited_policyStatusEdit {status : String} {a : Bool} (hs : status = "active" ∨ status = "disabled")
    (h : policyStatusEdit base tenant id status f = .ok (f',a)) : Edited f f' := by
  unfold policyStatusEdit at h
  split_ifs at h
  · cases h
    exact .status tenant id hs
  · cases h
    exact .other rfl rfl rfl fun _ _ h _ => .inl h

theorem edited_legacyExceptionEdit {edit : Model.LegacyException → Except String Model.LegacyException}
    {a : Model.LegacyException} (h : legacyExceptionEdit tenant id edit f = .ok (f',a)) :
    Edited f f' := by
  unfold legacyExceptionEdit at h
  simp only at h
  split at h
  · cases h
  split_ifs at h
  cases h
  exact .other rfl rfl rfl fun _ _ h _ => .inl h

theorem edited_removeLegacyExceptionEdit {a : Bool}
    (h : removeLegacyExceptionEdit tenant id f = .ok (f',a)) : Edited f f' := by
  unfold removeLegacyExceptionEdit at h
  simp only at h
  split at h <;> cases h <;> exact .other rfl rfl rfl fun _ _ h _ => .inl h

theorem edited_restrictionEdit {provider : String} {allowed context : Option String} {enabled : Option Bool}
    (ht : trimSpace tenant = tenant) (hne : tenant ≠ "")
    (h : restrictionEdit tenant provider allowed context enabled f = .ok (f',())) : Edited f f' := by
  unfold restrictionEdit at h
  simp only at h
  split at h
  · cases h
  cases h
  refine .other rfl rfl rfl fun k settings hk _ => ?_
  rw [Map.getElem?_insert_eq] at hk
  split at hk
  · rename_i hkey
    exact .inr (hkey ▸ ⟨ht,hne⟩)
  · exact .inl hk

theorem Change.edited {c : Change} {edit : Edit Unit} (hc : c.prepare s = .ok (some edit)) (h : edit f = .ok (f',())) :
    Edited f f' := by
  cases c with
  | upsert item tenant now =>
    simp only [Change.prepare] at hc
    split at hc
    · cases hc
    rename_i p hp
    cases hc
    obtain ⟨a, ha⟩ := forget_ok h
    cases ha
    exact .upsert hp
  | delete tenant id =>
    simp only [Change.prepare] at hc
    split_ifs at hc
    cases hc
    obtain ⟨a, ha⟩ := forget_ok h
    exact edited_deleteEdit ha
  | policyStatus tenant id status =>
    simp only [Change.prepare] at hc
    split at hc
    · cases hc
    rename_i hs
    cases hc
    obtain ⟨a, ha⟩ := forget_ok h
    rw [not_and_or,not_not,not_not] at hs
    exact edited_policyStatusEdit hs ha
  | ruleStatuses statuses =>
    cases hc
    cases h
    exact .ruleStatuses statuses
  | eastWest tenant rules ttl enabled unmatched =>
    cases hc
    cases h
    exact .other rfl rfl rfl fun _ _ h _ => .inl h
  | serverInitiated tenant enabled =>
    cases hc
    cases h
    exact .other rfl rfl rfl fun _ _ h _ => .inl h
  | legacyException tenant id e =>
    cases hc
    obtain ⟨a, ha⟩ := forget_ok h
    exact edited_legacyExceptionEdit ha
  | removeLegacyException tenant id =>
    cases hc
    obtain ⟨a, ha⟩ := forget_ok h
    exact edited_removeLegacyExceptionEdit ha
  | restriction tenant provider allowed context enabled =>
    simp only [Change.prepare] at hc
    split_ifs at hc with hne
    cases hc
    exact edited_restrictionEdit (trimSpace_trimSpace tenant) hne h
  | removeRestrictions tenant =>
    simp only [Change.prepare] at hc
    split_ifs at hc
    · cases hc
    cases hc
    obtain ⟨a, ha⟩ := forget_ok h
    cases ha
    refine .other rfl rfl rfl fun k settings hk hsome => .inl ?_
    rw [Map.getElem?_insert_eq] at hk
    split at hk
    · cases hk
      simp at hsome
    · exact hk

/-- `next` can come of a change: an edit of the saved document or of the store's own state, as it is read back. -/
def Next (s : Store) (document : Option RuntimeState) (next : RuntimeState) : Prop :=
  ∃ current f, (document = some current ∨ reencode s.runtime = some current) ∧ Edited current f ∧
    reencode f = some next

/-- Everything a change can do to a store and its document. -/
inductive ChangeResult (s : Store) (document : Option RuntimeState) (outcome : Outcome) : Update Unit → Prop
  | idle (r : Except StoreError Unit) : ChangeResult s document outcome ⟨s,document,r⟩
  | unreported {next : RuntimeState} (h : Next s document next) (hp : s.persister = .shared) (e : StoreError) :
      ChangeResult s document outcome ⟨s,some next,.error e⟩
  | published {next : RuntimeState} (h : Next s document next) (d : Option RuntimeState)
      (hd : d = document ∧ s.persister = .none ∨ d = some next ∧ s.persister ≠ .none) :
      ChangeResult s document outcome ⟨s.publish next,d,.ok ()⟩
  | unconfirmed {next : RuntimeState} (h : Next s document next) (hp : s.persister = .file)
      (ho : outcome = .unconfirmed) (e : StoreError) :
      ChangeResult s document outcome ⟨s.publish next,some next,.error e⟩

theorem change_result (s : Store) (document : Option RuntimeState) (outcome : Outcome) (c : Change) :
    ChangeResult s document outcome (s.change document outcome c) := by
  unfold Store.change
  split
  · exact .idle _
  · exact .idle _
  rename_i edit hc
  have hnext : ∀ next, Built s document edit next → Next s document next := by
    rintro next ⟨current, f, a, hcur, he, hr⟩
    exact ⟨current,f,hcur,Change.edited hc he,hr⟩
  have hresult := @editRuntime_result _ s document outcome edit
  generalize editRuntime s document outcome edit = u at hresult ⊢
  cases hresult with
  | refused e => exact .idle _
  | unreported hb hp e => exact .unreported (hnext _ hb) hp e
  | published hb d hd a => exact .published (hnext _ hb) d hd
  | unconfirmed hb hp ho e => exact .unconfirmed (hnext _ hb) hp ho e

section Documents

variable {ι : Type} [DecidableEq ι]

/-- A property of documents that nothing the stores do can break. -/
structure Stable (P : RuntimeState → Prop) : Prop where
  empty : P {}
  reencode : ∀ f f', P f → reencode f = some f' → P f'
  edited : ∀ f f', P f → Edited f f' → P f'
  config : ∀ f tenant cfg, P f → trimSpace tenant = tenant → tenant ≠ "" → P (applyTenantConfig f tenant cfg)

/-- A property that every document has after what the stores do, if all had it before. -/
structure Kept (P : RuntimeState → Prop) : Prop where
  empty : P {}
  next : ∀ {s : Store} {document : Option RuntimeState} {next : RuntimeState}, P s.runtime →
    (∀ f, document = some f → P f) → Next s document next → P next
  config : ∀ f tenant cfg, P f → trimSpace tenant = tenant → tenant ≠ "" → P (applyTenantConfig f tenant cfg)

/-- Every document of a system, saved or in use, has the property. -/
structure System.Documents (P : RuntimeState → Prop) (σ : System ι) : Prop where
  stores : ∀ i, P (σ.stores i).runtime
  files : ∀ i f, σ.files i = some f → P f
  shared : ∀ f, σ.shared = some f → P f

variable {P : RuntimeState → Prop}

omit [DecidableEq ι] in
theorem System.Documents.document {σ : System ι} (h : σ.Documents P) (i : ι) (p : Persister) (f : RuntimeState)
    (hf : σ.document i p = some f) : P f := by
  cases p with
  | shared => exact h.shared f hf
  | none | file => exact h.files i f hf

theorem Stable.next (hP : Stable P) {document : Option RuntimeState} {next : RuntimeState} (hs : P s.runtime)
    (hd : ∀ f, document = some f → P f) (h : Next s document next) : P next := by
  obtain ⟨current, f, hcur, he, hr⟩ := h
  have hcurrent : P current := by
    rcases hcur with hcur | hcur
    · exact hd _ hcur
    · exact hP.reencode _ _ hs hcur
  exact hP.reencode _ _ (hP.edited _ _ hcurrent he) hr

theorem Stable.kept (hP : Stable P) : Kept P := ⟨hP.empty,hP.next,hP.config⟩

variable (hP : Kept P)

include hP

theorem Kept.perform {document : Option RuntimeState} (outcome : Outcome) (op : Operation) (hs : P s.runtime)
    (hd : ∀ f, document = some f → P f) : P (s.perform document outcome op).store.runtime ∧
      ∀ f, (s.perform document outcome op).document = some f → P f := by
  cases op with
  | newStore seed persister now =>
    simp only [Store.perform,Store.setRuntimeStatePersister]
    split
    · exact ⟨hP.empty,hd⟩
    split
    · exact ⟨hP.empty,hd⟩
    cases document with
    | none => exact ⟨hP.empty,hd⟩
    | some f => exact ⟨hd f rfl,hd⟩
  | change c =>
    have hresult := change_result s document outcome c
    rw [Store.perform]
    generalize s.change document outcome c = u at hresult ⊢
    cases hresult with
    | idle r => exact ⟨hs,hd⟩
    | unreported h => exact ⟨hs,fun f hf => Option.some.inj hf ▸ hP.next hs hd h⟩
    | published h d hdoc =>
      refine ⟨hP.next hs hd h,fun f hf => ?_⟩
      rcases hdoc with ⟨rfl, _⟩ | ⟨rfl, _⟩
      · exact hd f hf
      · exact Option.some.inj hf ▸ hP.next hs hd h
    | unconfirmed h hp ho e => exact ⟨hP.next hs hd h,fun f hf => Option.some.inj hf ▸ hP.next hs hd h⟩
  | replaceTenant tenant policies now =>
    simp only [Store.perform,Store.replaceTenant]
    split <;> exact ⟨hs,hd⟩
  | applyBundle tenant policies cfg now =>
    simp only [Store.perform,Store.applyBundle]
    split
    · exact ⟨hs,hd⟩
    rename_i hcfg
    rw [not_or] at hcfg
    exact ⟨hP.config _ _ _ hs (trimSpace_trimSpace tenant) hcfg.2,hd⟩
  | setCompiledPolicies tenant policies => exact ⟨hs,hd⟩
  | refreshSharedRuntime =>
    have hresult := refreshSharedRuntime_result s document outcome
    rw [Store.perform]
    generalize s.refreshSharedRuntime document outcome = u at hresult ⊢
    cases hresult with
    | unavailable | current => exact ⟨hs,hd⟩
    | adopted hf => exact ⟨hd _ hf,hd⟩

omit [DecidableEq ι] in
theorem Kept.initial : System.Documents P (System.initial : System ι) where
  stores _ := hP.empty
  files _ _ h := by cases h
  shared _ h := by cases h

theorem Kept.step {σ σ' : System ι} {l : Label ι} (h : σ.Documents P) (hl : Step σ l σ') : σ'.Documents P := by
  have hset : ∀ (σ : System ι) i p d, σ.Documents P → (∀ f, d = some f → P f) →
      (σ.setDocument i d p).Documents P := by
    intro σ i p d h hd
    cases p with
    | shared => exact ⟨h.stores,h.files,hd⟩
    | none | file =>
      refine ⟨h.stores,fun j f hf => ?_,h.shared⟩
      simp only [System.setDocument,Function.update_apply] at hf
      split at hf
      · exact hd f hf
      · exact h.files j f hf
  cases l with
  | lose i p =>
    subst hl
    exact hset σ i p none h (by simp)
  | run i op outcome =>
    subst hl
    have hperform := hP.perform outcome op (h.stores i) (h.document i (σ.persisterOf i op))
    have hset' := hset σ i (σ.persisterOf i op) _ h hperform.2
    refine ⟨fun j => ?_,hset'.files,hset'.shared⟩
    simp only [System.perform,Function.update_apply]
    split
    · exact hperform.1
    · exact h.stores j

end Documents

end DsseCore.PolicyStore
