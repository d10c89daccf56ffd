import DsseCore.Lib.Run
import DsseCore.GrantStore.Shared

/-!
# Snapshot generations

The generation labels the rows of a store.  Every operation either leaves the rows as a snapshot shows them or raises
the generation, so within one process a generation stands for one set of rows.
-/

namespace DsseCore.GrantStore

open Go Lib Store
open Std (ExtTreeMap)

/-- The generation did not go back, and where it stayed so did the rows that a snapshot shows. -/
structure Advances (s t : Store) : Prop where
  generation : s.generation ≤ t.generation
  rows : s.generation = t.generation → cloneGrants s.grants = cloneGrants t.grants

variable {s t : Store}

namespace Advances

theorem refl (s : Store) : Advances s s := ⟨le_refl _,fun _ => rfl⟩

theorem trans {u : Store} (h : Advances s t) (h' : Advances t u) : Advances s u := by
  refine ⟨le_trans h.generation h'.generation,fun heq => ?_⟩
  have hst : s.generation = t.generation := le_antisymm h.generation (heq ▸ h'.generation)
  exact (h.rows hst).trans (h'.rows (hst ▸ heq))

theorem of_same (hg : t.generation = s.generation) (hr : cloneGrants t.grants = cloneGrants s.grants) :
    Advances s t := ⟨le_of_eq hg.symm,fun _ => hr.symm⟩

theorem of_raised (hg : t.generation = s.generation + 1) : Advances s t :=
  ⟨by omega,fun h => by omega⟩

end Advances

section Local

variable (s : Store) (o : Save)

theorem advances_publishLocked (next : Map Grant) : Advances s (s.publishLocked next) := by
  unfold publishLocked
  split
  · next heq => exact .of_same rfl (by simp [heq])
  · exact .of_raised rfl

theorem advances_persistLocked : Advances s (s.persistLocked o).1 := by
  unfold persistLocked
  cases s.saveLocked o <;> exact .of_same rfl rfl

theorem advances_revokeLocked (id : String) : Advances s (s.revokeLocked o id).1 := by
  unfold revokeLocked
  cases s.grants[id]? with
  | none => exact .refl s
  | some g =>
    dsimp only
    split
    · exact advances_persistLocked s o
    · exact Advances.trans (.of_raised rfl) (advances_persistLocked _ o)

theorem advances_revokeForTenantLocal (tenant id : String) :
    Advances s (s.revokeForTenantLocal o tenant id).1 := by
  unfold revokeForTenantLocal
  dsimp only
  split
  · exact .refl s
  split
  · split
    · exact advances_revokeLocked s o _
    · exact .refl s
  · exact .refl s

theorem generation_revokeLocked_active {id : String} {g : Grant} (hg : s.grants[id]? = some g)
    (hr : g.revoked = false) : (s.revokeLocked o id).1.generation = s.generation + 1 := by
  unfold revokeLocked persistLocked
  rw [hg]
  simp only [hr]
  split <;> rfl

theorem advances_consumeAuthenticationLocal (expected : Grant) (now : Time) :
    Advances s (s.consumeAuthenticationLocal o expected now).1 := by
  unfold consumeAuthenticationLocal
  cases s.grants[expected.grantID]? with
  | none => exact .refl s
  | some g =>
    dsimp only
    split
    · exact .refl s
    rename_i hc
    have hactive : g.revoked = false := by
      simp only [consumable,Bool.not_eq_true',Bool.and_eq_true,Bool.not_eq_false] at hc
      exact hc.1.1.1.1.2
    -- the row is consumed first and then revoked
    have hactive' : (g.withConsumed (Time.formatRFC3339 now)).revoked = false := by
      rw [Grant.withConsumed_revoked]
      exact hactive
    generalize g.withConsumed (Time.formatRFC3339 now) = g' at hactive' ⊢
    have hget : (s.withGrants (s.grants.insert g'.grantID g')).grants[g'.grantID]? = some g' := by
      rw [withGrants,Map.getElem?_insert_eq,if_pos rfl]
    have hraised := generation_revokeLocked_active _ o hget hactive'
    split <;> exact .of_raised hraised

theorem advances_requireReauthenticationLocal (env : Env) (tenant id : String) (now : Time) :
    Advances s (s.requireReauthenticationLocal env o tenant id now).1 := by
  unfold requireReauthenticationLocal
  cases s.grants[id]? with
  | none => exact .refl s
  | some g =>
    dsimp only
    split_ifs
    · exact .refl s
    · exact .refl s
    · refine Advances.trans (.of_raised ?_) (advances_persistLocked _ o)
      change (consolidateReauthenticationFencesLocked env _ tenant now).generation + 1 = s.generation + 1
      unfold consolidateReauthenticationFencesLocked
      split <;> rfl
    · exact advances_persistLocked s o

theorem advances_pruneExpiredLocal (now : Time) (protectedOnly : Bool) :
    Advances s (s.pruneExpiredLocal o now protectedOnly).1 := by
  unfold pruneExpiredLocal
  dsimp only
  split
  · exact .refl s
  split
  · have h := advances_publishLocked s
      ((cloneGrants s.grants).filterMap fun _ g => pruneRow (indexReauthenticationFences s.grants) now protectedOnly g)
    exact ⟨h.generation,h.rows⟩
  · exact .refl s
  · exact .refl s

theorem advances_removeTenantLocal (tenant : String) : Advances s (s.removeTenantLocal o tenant).1 := by
  unfold removeTenantLocal
  dsimp only
  split_ifs
  · exact .refl s
  · exact .refl s
  · exact .refl s
  · exact .of_raised rfl

theorem advances_mergeProposals (now : Time) (authorityEvidence : Bool) (rows : Map Grant) :
    Advances s (s.mergeProposals o now authorityEvidence rows).1 := by
  unfold mergeProposals
  extract_lets added updated enriched active denialChanged denied
  have hdenied : denialChanged = true → denied.generation = s.generation + 1 := by
    intro hc
    simp only [denied,hc]
    rfl
  have hsame : denialChanged = false → denied = s := by
    intro hc
    simp only [denied,hc,Bool.false_eq_true,if_false]
  have hadvances : Advances s denied := by
    cases hc : denialChanged with
    | true => exact .of_raised (hdenied hc)
    | false =>
      rw [hsame hc]
      exact .refl s
  split
  · exact hadvances
  split
  · exact hadvances
  cases hc : denialChanged with
  | true =>
    refine .of_raised ?_
    simp only [admitProposals,Bool.or_true]
    exact hdenied hc
  | false =>
    rw [hsame hc]
    cases ha : active.isEmpty with
    | true =>
      have hempty : active.toList = [] := ExtTreeMap.toList_eq_nil_iff.mpr (ExtTreeMap.isEmpty_iff.mp ha)
      refine .of_same ?_ ?_
      · simp [admitProposals,ha]
      · simp [admitProposals,hempty]
    | false =>
      refine .of_raised ?_
      simp [admitProposals,ha]

theorem advances_mergeLocalWithEvidence (incoming : List Grant) (now : Time) (authorityEvidence : Bool) :
    Advances s (s.mergeLocalWithEvidence o incoming now authorityEvidence).1 := by
  unfold mergeLocalWithEvidence
  cases proposeAll s.grants {} incoming with
  | error e => exact .refl s
  | ok p =>
    dsimp only
    split
    · exact .refl s
    split
    · exact .refl s
    · exact advances_mergeProposals s o now authorityEvidence p.rows

theorem advances_setPersister (p : Option Persister) (loaded : Loaded) (clock : Time) :
    Advances s (s.setPersister p loaded clock).1 := by
  unfold setPersister
  split
  · exact .refl s
  cases p with
  | none => exact .of_same rfl rfl
  | some p =>
    match loaded with
    | .error e => exact .refl s
    | .ok none => exact .of_same rfl rfl
    | .ok (some data) =>
      dsimp only
      cases decodeShared data with
      | none => exact .refl s
      | some fresh =>
        by_cases heq : s.grants = fresh
        · exact .of_same (by simp [heq]) (by simp [heq])
        · exact .of_raised (by simp [heq])

end Local

section Shared

variable {σ α : Type} (A : Authority σ) (s : Store) (row : σ)

theorem advances_latchAny (denials : Map Grant) : Advances s (s.latchAny denials) := by
  unfold latchAny
  split
  · exact .refl s
  have h := advances_publishLocked { s with
    pending := denials.toList.foldl (fun pending e => pending.insert e.1 (cloneGrant e.2)) s.pending }
    (denials.toList.foldl latchRow (cloneGrants s.grants))
  exact ⟨h.generation,h.rows⟩

theorem advances_build (edit : Edit α) (raw : Option Json) : Advances s (s.build edit raw).store := by
  unfold build
  cases s.authorityRows raw with
  | error e => exact .refl s
  | ok authority =>
    dsimp only
    cases edit (candidateStore (overlayPending s.pending authority)) with
    | error e => exact .refl s
    | ok r =>
      dsimp only
      split
      · exact .refl s
      · exact advances_latchAny s _

theorem advances_mutateShared (edit : Edit α) (option : SharedGrantMutation) (o : Outcome) (clock : Time) :
    Advances s (s.mutateShared A row edit option o clock).store := by
  unfold mutateShared
  cases A.read row with
  | error e => exact advances_latchAny s _
  | ok raw =>
    dsimp only
    split
    · exact advances_latchAny s _
    have hb := advances_build s edit raw
    have hknown : Advances s { (s.build edit raw).store with
        authorityKnown := (s.build edit raw).store.authorityKnown || (s.build edit raw).observedAuthority } :=
      ⟨hb.generation,hb.rows⟩
    cases (s.build edit raw).result with
    | error e => exact hknown
    | ok rows =>
      dsimp only
      cases A.write (encodeGrantSnapshot rows) with
      | error e => exact hknown.trans (advances_latchAny _ _)
      | ok row' =>
        cases o with
        | commit => exact hknown.trans ⟨(advances_publishLocked _ _).generation,(advances_publishLocked _ _).rows⟩
        | refuse => exact hknown.trans (advances_latchAny _ _)
        | abort => exact hknown.trans (advances_latchAny _ _)
        | unconfirmed => exact hknown.trans (advances_latchAny _ _)

theorem advances_publishLoaded (seen : RefreshSeen) (answer : LoadAnswer) (clock : Time) :
    Advances s (s.publishLoaded seen answer clock).1 := by
  unfold publishLoaded
  cases answer with
  | failed => exact .refl s
  | unchanged =>
    dsimp only
    split
    · exact .refl s
    · exact .of_same rfl rfl
  | loaded raw =>
    dsimp only
    split
    · exact .refl s
    split
    · split
      · exact .refl s
      · exact .of_same rfl rfl
    cases loadedRows raw with
    | none => exact .refl s
    | some rows =>
      dsimp only
      split
      · exact .refl s
      · have h := advances_publishLocked s (overlayPending s.pending rows)
        exact ⟨h.generation,h.rows⟩

theorem advances_refreshShared (answer : LoadAnswer) (clock : Time) : Advances s (s.refreshShared answer clock).1 := by
  unfold refreshShared
  split
  · exact advances_publishLoaded s _ answer clock
  · exact .refl s

theorem advances_mergeTransaction (io : Io) (incoming : List Grant) (now : Time) (authorityEvidence : Bool) :
    Advances s (s.mergeTransaction A row io incoming now authorityEvidence).1 := by
  unfold mergeTransaction
  split
  · exact advances_mutateShared A s row _ _ _ _
  · exact advances_mergeLocalWithEvidence s io.save incoming now authorityEvidence

theorem advances_mergeCheckedContextWithEvidence (io : MergeIo) (incoming : List Grant) (now : Time)
    (authorityEvidence : Bool) :
    Advances s (s.mergeCheckedContextWithEvidence A row io incoming now authorityEvidence).1 := by
  have hr := advances_refreshShared s io.answer io.clock
  unfold mergeCheckedContextWithEvidence
  dsimp only
  split
  · exact hr
  · exact hr.trans (advances_mergeTransaction A _ row _ incoming now authorityEvidence)

theorem advances_mergeBatchContext (io io' : MergeIo) (incoming : List Grant) (now : Time) (authorityEvidence : Bool) :
    Advances s (s.mergeBatchContext A row io io' incoming now authorityEvidence).1 := by
  unfold mergeBatchContext
  extract_lets denials first second
  have hfirst : Advances s first.1 := by
    by_cases hd : denials.isEmpty = true
    · simp only [first,hd]
      exact .refl s
    · simp only [first,hd]
      exact advances_mergeCheckedContextWithEvidence A s row io _ now false
  split
  · exact hfirst
  · exact hfirst.trans (advances_mergeCheckedContextWithEvidence A _ _ io' incoming now authorityEvidence)

theorem advances_mintContext (io : Io) (g : Grant) (ttl : Int) (now : Time) :
    Advances s (s.mintContext A row io g ttl now).1 := by
  unfold mintContext
  split
  · exact advances_mutateShared A s row _ _ _ _
  · unfold mintLocal
    dsimp only
    split_ifs <;> first | exact .refl s | exact .of_raised rfl

theorem advances_revokeForTenantContext (io : Io) (tenant id : String) :
    Advances s (s.revokeForTenantContext A row io tenant id).1 := by
  unfold revokeForTenantContext
  split
  · exact advances_mutateShared A s row _ _ _ _
  · dsimp only
    exact advances_revokeForTenantLocal s io.save (trimSpace tenant) (trimSpace id)

theorem advances_requireReauthenticationForTenantContext (env : Env) (io : Io) (tenant id : String) (now : Time) :
    Advances s (s.requireReauthenticationForTenantContext env A row io tenant id now).1 := by
  unfold requireReauthenticationForTenantContext
  dsimp only
  split
  · exact .refl s
  split
  · exact advances_mutateShared A s row _ _ _ _
  · exact advances_requireReauthenticationLocal s io.save env (trimSpace tenant) (trimSpace id) now

theorem advances_consumeAuthenticationRequest (io : Io) (expected : Grant) (now : Time) :
    Advances s (s.consumeAuthenticationRequest A row io expected now).1 := by
  unfold consumeAuthenticationRequest
  split
  · exact .refl s
  split
  · exact advances_mutateShared A s row _ _ _ _
  · exact advances_consumeAuthenticationLocal s io.save expected now

theorem advances_pruneExpired (io : Io) (now : Time) : Advances s (s.pruneExpired A row io now).1 := by
  unfold pruneExpired
  dsimp only
  split
  · have hm := advances_mutateShared A s row (pruneEdit now (s.persister == some .rolling)) {} io.outcome io.clock
    split
    · exact hm
    · exact ⟨hm.generation,hm.rows⟩
  · exact advances_pruneExpiredLocal s io.save now false

theorem advances_removeTenantContext (io : Io) (tenant : String) :
    Advances s (s.removeTenantContext A row io tenant).1 := by
  unfold removeTenantContext
  split
  · exact advances_mutateShared A s row _ _ _ _
  · exact advances_removeTenantLocal s io.save tenant

theorem advances_refreshForRead (answer : LoadAnswer) (clock : Time) : Advances s (s.refreshForRead answer clock) := by
  have hr := advances_refreshShared s answer clock
  unfold refreshForRead
  dsimp only
  split
  · exact hr
  · exact hr
  split
  · exact ⟨hr.generation,hr.rows⟩
  · exact hr

theorem advances_snapshotAllChecked (answer : LoadAnswer) (clock : Time) :
    Advances s (s.snapshotAllChecked answer clock).1 := by
  have hr := advances_refreshShared s answer clock
  unfold snapshotAllChecked
  dsimp only
  split
  · exact hr
  · exact hr

end Shared

/-- The operations on a store.  What they meet outside of the process is left open: any shared document, any end of a
save or of a transaction, and any answer to a load. -/
inductive Op where
  | mint (g : Grant) (ttl : Int) (now : Time)
  | merge (incoming : List Grant) (now : Time) (authorityEvidence : Bool)
  | revoke (tenant id : String)
  | requireReauthentication (tenant id : String) (now : Time)
  | consume (expected : Grant) (now : Time)
  | pruneExpired (now : Time)
  | removeTenant (tenant : String)
  | refreshShared
  | refreshForRead
  | setPersister (p : Option Persister)
  | snapshotAll (result : Except Err (List Grant × ℕ))

inductive Step (env : Env) : Store → Op → Store → Prop
  | mint {σ : Type} {s : Store} (A : Authority σ) (row : σ) (io : Io) (g : Grant) (ttl : Int) (now : Time) :
    Step env s (.mint g ttl now) (s.mintContext A row io g ttl now).1
  | merge {σ : Type} {s : Store} (A : Authority σ) (row : σ) (io io' : MergeIo) (incoming : List Grant) (now : Time)
    (authorityEvidence : Bool) : Step env s (.merge incoming now authorityEvidence)
      (s.mergeBatchContext A row io io' incoming now authorityEvidence).1
  | revoke {σ : Type} {s : Store} (A : Authority σ) (row : σ) (io : Io) (tenant id : String) :
    Step env s (.revoke tenant id) (s.revokeForTenantContext A row io tenant id).1
  | requireReauthentication {σ : Type} {s : Store} (A : Authority σ) (row : σ) (io : Io) (tenant id : String)
    (now : Time) : Step env s (.requireReauthentication tenant id now)
      (s.requireReauthenticationForTenantContext env A row io tenant id now).1
  | consume {σ : Type} {s : Store} (A : Authority σ) (row : σ) (io : Io) (expected : Grant) (now : Time) :
    Step env s (.consume expected now) (s.consumeAuthenticationRequest A row io expected now).1
  | pruneExpired {σ : Type} {s : Store} (A : Authority σ) (row : σ) (io : Io) (now : Time) :
    Step env s (.pruneExpired now) (s.pruneExpired A row io now).1
  | removeTenant {σ : Type} {s : Store} (A : Authority σ) (row : σ) (io : Io) (tenant : String) :
    Step env s (.removeTenant tenant) (s.removeTenantContext A row io tenant).1
  | refreshShared {s : Store} (answer : LoadAnswer) (clock : Time) :
    Step env s .refreshShared (s.refreshShared answer clock).1
  | refreshForRead {s : Store} (answer : LoadAnswer) (clock : Time) :
    Step env s .refreshForRead (s.refreshForRead answer clock)
  | setPersister {s : Store} (p : Option Persister) (loaded : Loaded) (clock : Time) :
    Step env s (.setPersister p) (s.setPersister p loaded clock).1
  | snapshotAll {s : Store} (answer : LoadAnswer) (clock : Time) :
    Step env s (.snapshotAll (s.snapshotAllChecked answer clock).2) (s.snapshotAllChecked answer clock).1

variable {env : Env}

theorem advances_step {op : Op} (h : Step env s op t) : Advances s t := by
  cases h with
  | mint A row io g ttl now => exact advances_mintContext A s row io g ttl now
  | merge A row io io' incoming now evidence => exact advances_mergeBatchContext A s row io io' incoming now evidence
  | revoke A row io tenant id => exact advances_revokeForTenantContext A s row io tenant id
  | requireReauthentication A row io tenant id now =>
    exact advances_requireReauthenticationForTenantContext A s row env io tenant id now
  | consume A row io expected now => exact advances_consumeAuthenticationRequest A s row io expected now
  | pruneExpired A row io now => exact advances_pruneExpired A s row io now
  | removeTenant A row io tenant => exact advances_removeTenantContext A s row io tenant
  | refreshShared answer clock => exact advances_refreshShared s answer clock
  | refreshForRead answer clock => exact advances_refreshForRead s answer clock
  | setPersister p loaded clock => exact advances_setPersister s p loaded clock
  | snapshotAll answer clock => exact advances_snapshotAllChecked s answer clock

theorem advances_run {ops : List Op} (h : Run (Step env) s ops t) : Advances s t :=
  h.rel (P := fun _ => True) trivial (fun _ _ _ _ _ => trivial) Advances.refl (fun _ _ _ => Advances.trans)
    fun _ _ _ _ => advances_step

def snapshotRowsOf (rows : Map Grant) : List Grant :=
  sliceStable (fun a b => decide (a.grantID < b.grantID)) (rows.toList.map Prod.snd)

theorem snapshotAll_result {rows : List Grant} {generation : ℕ}
    (h : Step env s (.snapshotAll (.ok (rows,generation))) t) :
    generation = t.generation ∧ rows = snapshotRowsOf (cloneGrants t.grants) := by
  generalize hop : Op.snapshotAll (.ok (rows,generation)) = op at h
  cases h with
  | snapshotAll answer clock =>
    have hresult := Op.snapshotAll.inj hop
    have hlist : (cloneGrants (s.refreshShared answer clock).1.grants).toList =
        (s.refreshShared answer clock).1.grants.toList.map fun e => (e.1,cloneGrant e.2) := ExtTreeMap.toList_map
    unfold snapshotAllChecked at hresult ⊢
    cases hr : (s.refreshShared answer clock).2 with
    | some e =>
      simp only [hr] at hresult
      cases hresult
    | none =>
      simp only [hr] at hresult ⊢
      obtain ⟨rfl, rfl⟩ := Prod.mk.inj (Except.ok.inj hresult)
      refine ⟨rfl,?_⟩
      rw [snapshotRowsOf,hlist,List.map_map]
      rfl
  | _ => cases hop

/-- Two snapshots of one process with the same generation hold the same rows, and generations never decrease. -/
theorem snapshots_faithful (env : Env) {s₁ s₁' s₂ s₂' : Store} {between : List Op} {rows₁ rows₂ : List Grant}
    {generation₁ generation₂ : ℕ} (h₁ : Step env s₁ (.snapshotAll (.ok (rows₁,generation₁))) s₁')
    (hbetween : Run (Step env) s₁' between s₂) (h₂ : Step env s₂ (.snapshotAll (.ok (rows₂,generation₂))) s₂') :
    generation₁ ≤ generation₂ ∧ (generation₁ = generation₂ → rows₁ = rows₂) := by
  obtain ⟨rfl, rfl⟩ := snapshotAll_result h₁
  obtain ⟨rfl, rfl⟩ := snapshotAll_result h₂
  have hadvances : Advances s₁' s₂' := (advances_run hbetween).trans (advances_step h₂)
  exact ⟨hadvances.generation,fun heq => by rw [hadvances.rows heq]⟩

/-- A store of its own, without a persister, after one login. -/
def oneLogin : Store :=
  (mintContext blobAuthority {} none { clock := 0 } dayGrant 0 (1788256800 * Time.second)).1

def afterUnknown : Store := (oneLogin.revokeForTenantContext blobAuthority none { clock := 0 } "acme" "other").1

theorem snapshots_faithful_oneLogin : ∃ rows₁ rows₂, rows₁.length = 1 ∧
    (oneLogin.snapshotAllChecked .failed 0).2 = .ok (rows₁,1) ∧
    (afterUnknown.snapshotAllChecked .failed 0).2 = .ok (rows₂,1) ∧ rows₁ = rows₂ := by
  have hrows₁ : ∃ rows, rows.length = 1 ∧ (oneLogin.snapshotAllChecked .failed 0).2 = .ok (rows,1) :=
    ⟨[cloneGrant (mintRecord dayGrant 0 (1788256800 * Time.second))],by decide +kernel,by decide +kernel⟩
  have hrows₂ : ∃ rows, (afterUnknown.snapshotAllChecked .failed 0).2 = .ok (rows,1) :=
    ⟨[cloneGrant (mintRecord dayGrant 0 (1788256800 * Time.second))],by decide +kernel⟩
  obtain ⟨rows₁, hlen, h₁⟩ := hrows₁
  obtain ⟨rows₂, h₂⟩ := hrows₂
  have hstep₁ := @Step.snapshotAll (strokeEnv 0) oneLogin .failed 0
  have hstep₂ := @Step.snapshotAll (strokeEnv 0) afterUnknown .failed 0
  rw [h₁] at hstep₁
  rw [h₂] at hstep₂
  have hbetween : Run (Step (strokeEnv 0)) oneLogin [.revoke "acme" "other"] afterUnknown :=
    (Run.nil oneLogin).snoc (Step.revoke blobAuthority none { clock := 0 } "acme" "other")
  exact ⟨rows₁,rows₂,hlen,h₁,h₂,(snapshots_faithful (strokeEnv 0) hstep₁ hbetween hstep₂).2 rfl⟩

end DsseCore.GrantStore
