import DsseCore.PolicyStore.Deliverable
import DsseCore.PolicyStore.Layering

/-!
# Authoring and deleting a policy

A deletion takes back what the authoring put over the base policies, together with the status override of the policy,
which may be older than the authored policy.
-/

namespace DsseCore.PolicyStore

open Go Model Lib Value

theorem reencodeList_strs (l : List String) : reencodeList (l.map str) = l.map str := by
  induction l with
  | nil => rfl
  | cons s l ih => rw [List.map_cons,Value.reencodeList,ih,Value.reencode] <;> nofun

mutual

theorem reencode_reencode (v : Value) : v.reencode.reencode = v.reencode := by
  cases v <;> simp [Value.reencode,reencodeList_strs,reencodeList_reencodeList,reencodeFields_reencodeFields]

theorem reencodeList_reencodeList (l : List Value) :
    reencodeList (reencodeList l) = reencodeList l := by
  cases l <;> simp [reencodeList,reencode_reencode,reencodeList_reencodeList]

theorem reencodeFields_reencodeFields (l : List (String × Value)) :
    reencodeFields (reencodeFields l) = reencodeFields l := by
  match l with
  | [] => rfl
  | (k,v) :: l => simp [reencodeFields,reencode_reencode,reencodeFields_reencodeFields]

end

theorem reencodePolicy_reencodePolicy (p : Policy) : reencodePolicy (reencodePolicy p) = reencodePolicy p := by
  have hmap (m : Map Value) : (m.map fun _ => Value.reencode).map (fun _ => Value.reencode) = m.map fun _ => Value.reencode := by
    apply Std.ExtTreeMap.ext_getElem?
    intro k
    simp only [Std.ExtTreeMap.getElem?_map,Option.map_map,Function.comp_def,reencode_reencode]
  simp only [reencodePolicy,hmap]

variable {f f' : RuntimeState}

/-- The authored policies are as they were read from a document. -/
def ReadBack (f : RuntimeState) : Prop :=
  ∀ t id p, f.adminAuthoredPolicies.find t id = some p → reencodePolicy p = p

theorem readBack_reencode (h : reencode f = some f') : ReadBack f' := by
  intro t id p hp
  rw [(find_reencode h t id).1,Option.map_eq_some_iff] at hp
  obtain ⟨q, -, rfl⟩ := hp
  exact reencodePolicy_reencodePolicy q

theorem ReadBack.find (hf : ReadBack f) (h : reencode f = some f') (t id : String) :
    f'.adminAuthoredPolicies.find t id = f.adminAuthoredPolicies.find t id := by
  rw [(find_reencode h t id).1]
  cases hp : f.adminAuthoredPolicies.find t id with
  | none => rfl
  | some p => exact congrArg some (hf t id p hp)

theorem readBack_kept : Kept ReadBack where
  empty t id p h := by simp [Rows.find] at h
  next _ _ h := by
    obtain ⟨current, f, -, -, hr⟩ := h
    exact readBack_reencode hr
  config _ _ _ hf _ _ := hf

variable {s : Store} {document : Option RuntimeState} {outcome : Outcome}

def Store.edits (s : Store) (document : Option RuntimeState) : Option RuntimeState :=
  if s.persister = .shared then currentDocument s document else reencode s.runtime

theorem editRuntime_ok {α : Type} {edit : Edit α} {a : α} (h : (editRuntime s document outcome edit).result = .ok a) :
    ∃ current f next, s.edits document = some current ∧ edit current = .ok (f,a) ∧ reencode f = some next ∧
      (editRuntime s document outcome edit).store = s.publish next ∧
      (s.persister = .shared → (editRuntime s document outcome edit).document = some next) := by
  unfold editRuntime Store.edits at *
  split at h
  next hp =>
    rw [if_pos hp,if_pos hp]
    unfold editShared at h ⊢
    split at h
    · cases h
    split at h
    · cases h
    next hav _ next b hb =>
      obtain ⟨current, f, hcurrent, hedit, hr⟩ := build_some hb
      cases outcome with
      | saved =>
        cases h
        exact ⟨current,f,next,hcurrent,hedit,hr,rfl,fun _ => rfl⟩
      | _ => cases h
  next hp =>
    rw [if_neg hp,if_neg hp]
    unfold editLocal at h ⊢
    split at h
    · cases h
    · cases h
    next next b hb =>
      obtain ⟨current, hcurrent, hbuild⟩ := Option.map_eq_some_iff.mp hb
      obtain ⟨current', f, hcurrent', hedit, hr⟩ := build_some hbuild
      cases hcurrent'
      split at h
      next hnone =>
        cases h
        rw [if_pos hnone]
        exact ⟨current,f,next,hcurrent,hedit,hr,rfl,fun hshared => absurd hshared hp⟩
      next hnone =>
        rw [if_neg hnone]
        cases outcome with
        | saved | savedInPlace =>
          cases h
          exact ⟨current,f,next,hcurrent,hedit,hr,rfl,fun hshared => absurd hshared hp⟩
        | _ => cases h

def SameOverlay (f g : RuntimeState) : Prop :=
  (∀ t id, f.adminAuthoredPolicies.find t id = g.adminAuthoredPolicies.find t id) ∧
    f.policyStatusOverride = g.policyStatusOverride

theorem edits_sameOverlay (hs : ReadBack s.runtime)
    (hsync : s.persister = .shared → document = some s.runtime ∨ document = none) {current : RuntimeState}
    (h : s.edits document = some current) : SameOverlay current s.runtime := by
  have hread (h : reencode s.runtime = some current) : SameOverlay current s.runtime :=
    ⟨hs.find h,(find_reencode h "" "").2⟩
  unfold Store.edits at h
  split at h
  next hp =>
    rcases hsync hp with rfl | rfl
    · cases h
      exact ⟨fun _ _ => rfl,rfl⟩
    unfold currentDocument at h
    dsimp only at h
    split at h
    · cases h
    · exact hread h
  · exact hread h

variable {item p : Policy} {tenant : String} {now : Time}

theorem change_upsert_ok (hp : normalizeAdminPolicy item tenant now = .ok p)
    (h : (s.change document outcome (.upsert item tenant now)).result = .ok ()) :
    ∃ current next, s.edits document = some current ∧
      reencode { current with adminAuthoredPolicies := current.adminAuthoredPolicies.put p.tenantID p.id p } = some next ∧
      (s.change document outcome (.upsert item tenant now)).store = s.publish next ∧
      (s.persister = .shared → (s.change document outcome (.upsert item tenant now)).document = some next) := by
  have heq : s.change document outcome (.upsert item tenant now) =
      editRuntime s document outcome (upsertEdit p).forget := by
    simp only [Store.change,Change.prepare,hp]
  rw [heq] at h ⊢
  obtain ⟨current, f, next, hcurrent, hedit, hr, hstore, hdocument⟩ := editRuntime_ok h
  cases hedit
  exact ⟨current,next,hcurrent,hr,hstore,hdocument⟩

theorem change_delete_ok (hp : normalizeAdminPolicy item tenant now = .ok p) (removed : Policy)
    (h : (s.change document outcome (.delete p.tenantID p.id)).result = .ok ())
    (hfound : ∀ current, s.edits document = some current →
      current.adminAuthoredPolicies.find p.tenantID p.id = some removed) :
    ∃ current next, s.edits document = some current ∧
      reencode { current with
        adminAuthoredPolicies := current.adminAuthoredPolicies.remove p.tenantID p.id
        policyStatusOverride := current.policyStatusOverride.remove p.tenantID p.id } = some next ∧
      (s.change document outcome (.delete p.tenantID p.id)).store = s.publish next := by
  obtain ⟨hdeliverable, howner, hne⟩ := normalizeAdminPolicy_deliverable hp
  have heq : s.change document outcome (.delete p.tenantID p.id) =
      editRuntime s document outcome (deleteEdit s.runtimeBasePolicies p.tenantID p.id).forget := by
    have htrim : trimSpace p.tenantID = p.tenantID := by rw [howner,trimSpace_trimSpace]
    simp only [Store.change,Change.prepare,htrim,hdeliverable.id_trimmed,hne,hdeliverable.id_ne,or_self,if_false]
  rw [heq] at h ⊢
  obtain ⟨current, f, next, hcurrent, hedit, hr, hstore, -⟩ := editRuntime_ok h
  obtain ⟨a, hedit⟩ := forget_ok hedit
  rw [deleteEdit,hfound current hcurrent] at hedit
  cases hedit
  exact ⟨current,next,hcurrent,hr,hstore⟩

/-- After the authoring and the deletion the store is as before but for the override of the policy. -/
theorem undone (hs : s.Layered) (hread : ReadBack s.runtime) (hkeyed : s.runtime.Keyed)
    (hsync : s.persister = .shared → document = some s.runtime ∨ document = none)
    (hp : normalizeAdminPolicy item tenant now = .ok p)
    (hfree : s.runtime.adminAuthoredPolicies.find p.tenantID p.id = none)
    {u : Update Unit} (hu : u = s.change document outcome (.upsert item tenant now)) (hok : u.result = .ok ())
    {document' : Option RuntimeState} (hdocument : s.persister = .shared → document' = u.document) {outcome' : Outcome}
    (hok' : (u.store.change document' outcome' (.delete p.tenantID p.id)).result = .ok ()) :
    let s' := (u.store.change document' outcome' (.delete p.tenantID p.id)).store
    (∀ t id, s'.policies.find t id =
        if p.tenantID = t ∧ p.id = id then s.runtimeBasePolicies.find t id else s.policies.find t id) ∧
      ∀ t id, s'.runtime.policyStatusOverride.find t id =
        if p.tenantID = t ∧ p.id = id then none else s.runtime.policyStatusOverride.find t id := by
  subst hu
  obtain ⟨current, next, hcurrent, hr, hstore, hshared⟩ := change_upsert_ok hp hok
  obtain ⟨hsame, hoverride⟩ := edits_sameOverlay hread hsync hcurrent
  have hnext (t id : String) := (find_reencode hr t id).1
  simp only [Rows.find_put,hsame] at hnext
  rw [hstore] at hok' ⊢
  have hsync' : (s.publish next).persister = .shared →
      document' = some (s.publish next).runtime ∨ document' = none :=
    fun h => .inl ((hdocument h).trans (hshared h))
  have hreads {current' : RuntimeState} (h : (s.publish next).edits document' = some current') :=
    edits_sameOverlay (readBack_reencode hr) hsync' h
  obtain ⟨current', next', hcurrent', hr', hstore'⟩ := change_delete_ok hp (reencodePolicy p) hok' (by
    intro current' hcurrent'
    rw [(hreads hcurrent').1,publish_runtime,hnext,if_pos ⟨rfl,rfl⟩]
    rfl)
  obtain ⟨hsame', hoverride'⟩ := hreads hcurrent'
  rw [hstore']
  have hauthored (t id : String) : next'.adminAuthoredPolicies.find t id =
      s.runtime.adminAuthoredPolicies.find t id := by
    rw [(find_reencode hr' t id).1]
    simp only [Rows.find_remove,hsame',publish_runtime,hnext]
    split
    next hkey => rw [← hkey.1,← hkey.2,hfree]; rfl
    next hkey =>
      rw [Option.map_map,show reencodePolicy ∘ reencodePolicy = reencodePolicy from
        funext reencodePolicy_reencodePolicy]
      cases hq : s.runtime.adminAuthoredPolicies.find t id with
      | none => rfl
      | some q => exact congrArg some (hread t id q hq)
  have hoverrides (t id : String) : next'.policyStatusOverride.find t id =
      if p.tenantID = t ∧ p.id = id then none else s.runtime.policyStatusOverride.find t id := by
    rw [(find_reencode hr' t id).2]
    simp only [Rows.find_remove,hoverride',publish_runtime,(find_reencode hr t id).2,hoverride]
  refine ⟨fun t id => ?_,hoverrides⟩
  have hkeyed' : next'.Keyed := fun t id q hq => hkeyed t id q (hauthored t id ▸ hq)
  have heffective : ((s.publish next).publish next').policies.find t id =
      effectivePolicy s.runtimeBasePolicies next' t id := (layered_publish (s.publish next) hkeyed').effective t id
  rw [heffective,hs.effective]
  unfold effectivePolicy
  rw [hauthored,hoverrides]
  split
  next hkey => rw [← hkey.1,← hkey.2,hfree,withStatus_none,Option.map_id]; rfl
  · rfl

section Undo

variable {ι : Type} [DecidableEq ι]

/-- In a state of a run where the policy is not authored and the shared document, if the store uses one, is the one it
serves: authoring the policy and deleting it again brings back the effective policies and the status overrides of every
tenant exactly if the policy had no status override. -/
theorem deletion_undoes_authoring {ls : List (Label ι)} {σ : System ι} (h : Run Step System.initial ls σ) (i : ι)
    {item p : Policy} {tenant : String} {now : Time} (hp : normalizeAdminPolicy item tenant now = .ok p)
    (hfree : (σ.stores i).runtime.adminAuthoredPolicies.find p.tenantID p.id = none)
    (hsync : (σ.stores i).persister = .shared → σ.shared = some (σ.stores i).runtime ∨ σ.shared = none)
    {o o' : Outcome} (hu : (σ.update i (.change (.upsert item tenant now)) o).result = .ok ())
    (hd : ((σ.perform i (.change (.upsert item tenant now)) o).update i
      (.change (.delete p.tenantID p.id)) o').result = .ok ()) :
    let s := σ.stores i
    let s' := ((σ.perform i (.change (.upsert item tenant now)) o).update i (.change (.delete p.tenantID p.id)) o').store
    ((∀ t id, s'.policies.find t id = s.policies.find t id) ∧
      ∀ t id, s'.runtime.policyStatusOverride.find t id = s.runtime.policyStatusOverride.find t id) ↔
      s.runtime.policyStatusOverride.find p.tenantID p.id = none := by
  obtain ⟨hkeyed, hlayered⟩ := layered_of_run h
  have hread : σ.Documents ReadBack := h.inv readBack_kept.initial fun _ _ _ hs hl => readBack_kept.step hs hl
  generalize hop : Operation.change (.upsert item tenant now) = op at hu hd ⊢
  intro s s'
  have hstore : (σ.perform i op o).stores i = (σ.update i op o).store := by simp [System.perform]
  have hupdate : σ.update i op o = s.change (σ.document i s.persister) o (.upsert item tenant now) := by
    rw [← hop]
    rfl
  have hdelete : (σ.perform i op o).update i (.change (.delete p.tenantID p.id)) o' =
      (σ.update i op o).store.change ((σ.perform i op o).document i (σ.update i op o).store.persister) o'
        (.delete p.tenantID p.id) := by
    rw [← hstore]
    rfl
  have hsync' : s.persister = .shared → σ.document i s.persister = some s.runtime ∨ σ.document i s.persister = none := by
    intro hshared
    rw [hshared]
    exact hsync hshared
  have hdocument : s.persister = .shared →
      (σ.perform i op o).document i (σ.update i op o).store.persister = (σ.update i op o).document := by
    intro hshared
    obtain ⟨current, next, -, -, hpublished, -⟩ := change_upsert_ok hp (hupdate ▸ hu)
    have hpersister : (σ.update i op o).store.persister = .shared := by
      rw [hupdate,hpublished]
      exact hshared
    have hof : σ.persisterOf i op = .shared := by
      rw [← hop]
      exact hshared
    rw [hpersister]
    simp only [System.perform,hof]
    rfl
  obtain ⟨hpolicies, hoverrides⟩ := undone (hlayered i) (hread.stores i) (hkeyed.stores i) hsync' hp hfree hupdate hu
    hdocument (hdelete ▸ hd)
  rw [← hdelete] at hpolicies hoverrides
  constructor
  · rintro ⟨-, hsame⟩
    rw [← hsame,hoverrides,if_pos ⟨rfl,rfl⟩]
  intro hnone
  constructor
  · intro t id
    rw [hpolicies]
    split
    next hkey =>
      rw [← hkey.1,← hkey.2,(hlayered i).effective,effectivePolicy,hfree,hnone,withStatus_none,Option.map_id]
      rfl
    · rfl
  · intro t id
    rw [hoverrides]
    split
    next hkey => rw [← hkey.1,← hkey.2,hnone]
    · rfl

private def bundled : Policy :=
  { id := "p1", tenantID := "acme", conditions := .ofEntries [("fqdn",.str "a.example")], action := ⟨"deny"⟩,
    status := "active" }

private def bundledStore : System Unit := System.initial.perform () (.newStore [bundled] .none 0) .saved

private def disabledStore : System Unit :=
  bundledStore.perform () (.change (.policyStatus "acme" "p1" "disabled")) .saved

private def authorAndDelete (σ : System Unit) : Update Unit :=
  (σ.perform () (.change (.upsert bundled "acme" 5)) .saved).update () (.change (.delete "acme" "p1")) .saved

theorem bundled_policy_restored :
    (authorAndDelete bundledStore).store.policies.find "acme" "p1" =
      (bundledStore.stores ()).policies.find "acme" "p1" := by
  have hrun : Run Step System.initial [.run () (.newStore [bundled] .none 0) .saved] bundledStore :=
    (Run.nil System.initial).snoc rfl
  exact ((deletion_undoes_authoring hrun () (p := { bundled with name := "p1", updatedAt := some (Time.formatRFC3339 5) })
    (by decide +kernel) (by decide +kernel) nofun (by decide +kernel) (by decide +kernel)).mpr (by decide +kernel)).1 "acme" "p1"

/-- The deletion takes the override that had disabled the policy of the bundle with it. -/
theorem disabled_policy_returns :
    ((disabledStore.stores ()).policies.find "acme" "p1").map (·.status) = some "disabled" ∧
      (disabledStore.stores ()).runtime.adminAuthoredPolicies.find "acme" "p1" = none ∧
      (authorAndDelete disabledStore).result.isOk = true ∧
      ((authorAndDelete disabledStore).store.policies.find "acme" "p1").map (·.status) = some "active" := by
  decide +kernel

end Undo

end DsseCore.PolicyStore
