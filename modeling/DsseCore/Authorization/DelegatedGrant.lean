import DsseCore.Authorization.Machine
import DsseCore.Go.Time

/-!
# The store of delegated access grants
-/

namespace DsseCore.DelegatedGrant

open Go Lib Authorization Node Std.ExtTreeMap

structure Grant where
  id : String := ""
  tenantID : String := ""
  status : String := ""
  expiresAt : String := ""
  revokedAt : Option String := none
  revocationReason : Option String := none
  deriving DecidableEq

structure PendingRevocation where
  at_ : String
  reason : String
  deriving DecidableEq

def grantKey : String → String → String := recordKey

def stringPtr (value : String) : Option String := if value = "" then none else some value

def Grant.revoke (grant : Grant) (p : PendingRevocation) : Grant :=
  { grant with status := "revoked", revokedAt := some p.at_, revocationReason := stringPtr p.reason }

def grants : Kind Grant PendingRevocation where
  tenantID := Grant.tenantID
  id := Grant.id
  revoked grant := grant.status == "revoked"
  deny p grant := grant.revoke p
  skipsInvalid := false
  tenantID_deny _ _ := rfl
  id_deny _ _ := rfl
  revoked_deny _ _ := rfl

abbrev Store := Node Grant PendingRevocation

/-- `none` when the transition is admitted. -/
def validateTransition (existing next : Grant) : Option Refusal :=
  if existing.status == "revoked" && next.status != "revoked" then
    some (.transition existing.id "revoked" next.status)
  else if existing.status == "expired" && next.status == "active" then
    some (.transition existing.id "expired" "active")
  else none

def isActive (grant : Grant) (now : Time) : Bool :=
  if grant.status != "active" then false
  else if trimSpace grant.expiresAt != "" then
    match Time.parseRFC3339 grant.expiresAt with
    | none => false
    | some expiresAt => decide (now < expiresAt)
  else true

namespace Store

def upsertEdit (s : Store) (grant : Grant) (received : Bool) (now : Time) (next : Map Grant) :
    Except Refusal (Map Grant) × Option Grant :=
  let key := grantKey grant.tenantID grant.id
  let old := next[key]?
  if s.pendingRevocations.contains key && grant.status != "revoked" then
    if received then (.error .retainedTerminal,some { old.getD {} with status := "revoked" }) else (.error .pending,none)
  else match old.bind (validateTransition · grant) with
    | some refusal => if received then (.error .retainedTerminal,old) else (.error refusal,none)
    | none =>
      if !received ∧ isActive grant now ∧ ¬ old.any (isActive · now) ∧ 0 < s.capacity ∧
          s.capacity ≤ (next.toList.filter fun stored => isActive stored.2 now).length then (.error .capacity,none)
      else (.ok (next.insert key grant),none)

/-- A denial that could not be saved: the first latch of a key stays, and all latches are laid over `next`. -/
def latch (s : Store) (key : String) (p : PendingRevocation) (next : Map Grant) : Store :=
  let pending := if s.pendingRevocations.contains key then s.pendingRevocations else s.pendingRevocations.insert key p
  { s with pendingRevocations := pending, records := grants.applyPending pending next }

def upsertContext (s : Store) (e : Ending) (grant : Grant) (received : Bool) (now : Time) :
    Store × Except StoreError Grant :=
  if !validKey grant.tenantID grant.id then (s,.error .invalidKey)
  else
    let key := grantKey grant.tenantID grant.id
    let r := s.editLocked grants e (upsertEdit s grant received now)
    match r.error with
    | none => (r.node,.ok grant)
    | some err =>
      if err = .refused .retainedTerminal then (r.node,.ok (r.seen.join.getD {}))
      else if err = .persistence ∧ grant.status = "revoked" then
        let next := if r.node.records.contains key then r.node.records else r.node.records.insert key grant
        let p := ⟨grant.revokedAt.getD (Time.formatRFC3339 now),grant.revocationReason.getD ""⟩
        (latch r.node key p next,.error err)
      else (r.node,.error err)

def revokeEdit (s : Store) (tenant id reason : String) (now : Time) (next : Map Grant) :
    Except Refusal (Map Grant) × Option Grant :=
  match revokeKey grants tenant id next with
  | .error refusal => (.error refusal,none)
  | .ok key =>
    match next[key]? with
    | none => (.error .absent,none)
    | some grant =>
      if grant.status == "revoked" then
        if s.pendingRevocations.contains key then (.ok next,some grant) else (.error .noChange,some grant)
      else
        let result := grant.revoke ⟨Time.formatRFC3339 now,reason⟩
        (.ok (next.insert key result),some result)

/-- What a revocation denies in this process when its save failed: what the callback found, or what the store has. -/
def target (s : Store) (tenant id : String) (seen : Option Grant) : Option Grant :=
  match seen with
  | some result => some result
  | none =>
    if tenant ≠ "" then s.records[grantKey tenant id]?
    else match byID grants id s.records with
      | .ok current => current.map Prod.snd
      | .error _ => none

def revokeContext (s : Store) (e : Ending) (tenant id reason : String) (now : Time) :
    Store × Option Grant × Option StoreError :=
  let r := s.editLocked grants e (revokeEdit s tenant id reason now)
  match r.error with
  | none => (r.node,r.seen.join,none)
  | some err =>
    if err = .persistence then
      match target r.node tenant id r.seen.join with
      | none => (r.node,none,some err)
      | some result =>
        let key := grantKey result.tenantID result.id
        let s' := latch r.node key ⟨Time.formatRFC3339 now,reason⟩ (r.node.records.insert key result)
        (s',s'.records[key]?,some err)
    else (r.node,none,some err)

def revokeForTenantContext (s : Store) (e : Ending) (tenant id reason : String) (now : Time) :
    Store × Option Grant × Option StoreError :=
  if !validKey tenant id then (s,none,some .invalidKey) else revokeContext s e tenant id reason now

/-- The part of a key before its separator, `SplitN(key, "\x00", 2)[0]`. -/
def keyTenant (key : String) : String := String.ofList (key.toList.takeWhile (· != '\x00'))

def removeTenantContext (s : Store) (e : Ending) (tenant : String) : Store × Except StoreError ℕ :=
  s.removeTenant grants (fun grant => trimSpace grant.tenantID) (fun tenant key => keyTenant key == tenant) e tenant

end Store

inductive Op where
  | upsert (grant : Grant) (now : Time)
  | upsertReceived (grant : Grant) (now : Time)
  | revoke (id reason : String) (now : Time)
  | revokeForTenant (tenant id reason : String) (now : Time)
  | refresh (loaded : Bool)
  | removeTenant (tenant : String)

structure Reply where
  error : Option StoreError
  grant : Option Grant

def Store.perform (s : Store) (op : Op) (e : Ending) : Store × Reply :=
  match op with
  | .upsert grant now =>
    let r := s.upsertContext e grant false now
    (r.1,⟨errorOf r.2,r.2.toOption⟩)
  | .upsertReceived grant now =>
    let r := s.upsertContext e grant true now
    (r.1,⟨errorOf r.2,r.2.toOption⟩)
  | .revoke id reason now =>
    let r := s.revokeContext e "" id reason now
    (r.1,⟨r.2.2,r.2.1⟩)
  | .revokeForTenant tenant id reason now =>
    let r := s.revokeForTenantContext e tenant id reason now
    (r.1,⟨r.2.2,r.2.1⟩)
  | .refresh loaded =>
    let r := s.refreshShared grants loaded
    (r.1,⟨if r.2 then none else some .persistence,none⟩)
  | .removeTenant tenant =>
    let r := s.removeTenantContext e tenant
    (r.1,⟨errorOf r.2,none⟩)

def Op.touch : Op → Touch Grant
  | .upsert grant _ => .put grant
  | .upsertReceived grant _ => .put grant
  | .removeTenant tenant => .erase (trimSpace tenant)
  | _ => .deny

def Admits (old new : Grant) : Prop := validateTransition old new = none

variable {s : Store} {e : Ending} {now : Time} {cur next : Map Grant} {a : Option Grant} {tenant id : String}

theorem upsertEdit_rewrites {grant : Grant} {received : Bool} (hvalid : validKey grant.tenantID grant.id = true)
    (h : Store.upsertEdit s grant received now cur = (.ok next,a)) :
    grants.Rewrites Admits s.pendingRevocations (.put grant) cur next := by
  unfold Store.upsertEdit at h
  dsimp only at h
  split at h
  · split at h <;> cases h
  next hpending =>
    split at h
    · split at h <;> cases h
    next hold =>
      split at h
      · cases h
      cases h
      refine ⟨hvalid,?_,?_,rfl⟩
      · intro hmem
        by_contra hne
        have hcontains : s.pendingRevocations.contains (grantKey grant.tenantID grant.id) = true :=
          contains_iff_mem.mpr hmem
        have hstatus : (grant.status != "revoked") = true := by simpa [grants] using hne
        exact hpending (by rw [hcontains,hstatus]; rfl)
      · intro old hcur
        change cur[grantKey grant.tenantID grant.id]? = some old at hcur
        rw [hcur] at hold
        exact hold

theorem latch_latches {key : String} {p : PendingRevocation} (hnext : grants.Canonical next) (hkey : key ∈ next)
    (hothers : ∀ k, k ≠ key → next[k]? = s.records[k]?) : Latches grants key s (s.latch key p next) := by
  have hpending : (s.latch key p next).pendingRevocations =
      if s.pendingRevocations.contains key then s.pendingRevocations else s.pendingRevocations.insert key p := rfl
  have hlatched : key ∈ (s.latch key p next).pendingRevocations := by
    rw [hpending]
    split
    next h => exact contains_iff_mem.mp h
    next => exact mem_insert_self
  have hget : ∀ k, (s.latch key p next).records[k]? =
      next[k]?.map (grants.under (s.latch key p next).pendingRevocations[k]?) := fun k =>
        grants.getElem?_applyPending (s.latch key p next).pendingRevocations next k
  have hdenied : ∀ k grant, k ∈ (s.latch key p next).pendingRevocations →
      (s.latch key p next).records[k]? = some grant → grants.revoked grant = true :=
    fun k grant hk hgrant => revoked_applyPending hk hgrant
  refine ⟨rfl,rfl,rfl,hlatched,?_,?_,?_⟩
  · intro k hk
    rw [hpending]
    split
    · exact hk
    · exact mem_insert.mpr (.inr hk)
  · intro k
    by_cases hk : k ∈ (s.latch key p next).pendingRevocations
    · cases hrecord : (s.latch key p next).records[k]? with
      | some grant =>
        obtain ⟨hvalid, hk'⟩ := grants.canonical_applyPending hnext _ k grant hrecord
        exact .inr ⟨grant,rfl,hvalid,hk',hdenied k grant hk hrecord⟩
      | none =>
        refine .inl ?_
        have hnone : next[k]? = none := by
          rw [hget] at hrecord
          exact Option.map_eq_none_iff.mp hrecord
        have hne : k ≠ key := by
          rintro rfl
          rw [mem_iff_isSome_getElem?,hnone] at hkey
          contradiction
        rw [← hothers k hne,hnone]
    · refine .inl ?_
      have hne : k ≠ key := by
        rintro rfl
        exact hk hlatched
      have hp : (s.latch key p next).pendingRevocations[k]? = none := getElem?_eq_none hk
      rw [hget,hp,hothers k hne]
      cases s.records[k]? <;> rfl
  · obtain ⟨grant, hgrant⟩ := Option.isSome_iff_exists.mp (mem_iff_isSome_getElem?.mp hkey)
    have hrecord := hget key
    rw [hgrant] at hrecord
    exact ⟨_,hrecord,hdenied key _ hlatched hrecord⟩

theorem upsertContext_performs (hs : grants.Canonical s.records) (e : Ending) (grant : Grant) (received : Bool)
    (now : Time) : Performs grants Admits (.put grant) e s (s.upsertContext e grant received now).1 := by
  unfold Store.upsertContext
  split
  · exact .plain .kept
  next hvalid =>
    have hvalid : validKey grant.tenantID grant.id = true := by simpa using hvalid
    have heffect := (s.editLocked_spec grants e (Store.upsertEdit s grant received now)).effect
      (fun cur next a _ h => upsertEdit_rewrites hvalid h) fun cur => canonical_base hs
    have hcanonical := heffect.canonical hs
    generalize s.editLocked grants e (Store.upsertEdit s grant received now) = r at heffect hcanonical
    dsimp only
    split
    · exact .plain heffect
    split
    · exact .plain heffect
    split
    · refine .latched heffect (latch_latches ?_ ?_ ?_)
      · split
        · exact hcanonical
        · exact hcanonical.insert hvalid
      · split
        next h => exact contains_iff_mem.mp h
        next => exact mem_insert_self
      intro k hne
      split
      · rfl
      · rw [Map.getElem?_insert_eq,if_neg fun h => hne h.symm]
    · exact .plain heffect

theorem revokeEdit_error {reason : String} {r : Refusal} (hcur : grants.Canonical cur)
    (h : Store.revokeEdit s tenant id reason now cur = (.error r,a)) : a = none ∧ r ≠ .noChange ∨
      ∃ result, a = some result ∧ r = .noChange ∧ cur[grants.key result]? = some result ∧
        grants.revoked result = true ∧ grants.key result ∉ s.pendingRevocations ∧
        (tenant ≠ "" → grants.key result = recordKey tenant id) := by
  unfold Store.revokeEdit at h
  split at h
  next refusal hkey =>
    cases h
    exact .inl ⟨rfl,by rw [revokeKey_error hkey]; simp⟩
  next key hkey =>
    split at h
    · cases h
      exact .inl ⟨rfl,by simp⟩
    next grant hgrant =>
      obtain ⟨-, rfl⟩ := hcur key grant hgrant
      split at h
      next hrevoked =>
        split at h
        · cases h
        next hpending =>
          cases h
          refine .inr ⟨grant,rfl,rfl,hgrant,hrevoked,?_,revokeKey_ok hkey⟩
          exact fun hmem => hpending (contains_iff_mem.mpr hmem)
      · cases h

theorem revokeEdit_ok {reason : String} (hcur : grants.Canonical cur)
    (h : Store.revokeEdit s tenant id reason now cur = (.ok next,a)) :
    ∃ result, a = some result ∧ grants.Valid result ∧ grants.revoked result = true ∧
      (tenant ≠ "" → grants.key result = recordKey tenant id) ∧ next = cur.insert (grants.key result) result := by
  unfold Store.revokeEdit at h
  split at h
  · cases h
  next key hkey =>
    split at h
    · cases h
    next grant hgrant =>
      obtain ⟨hvalid, rfl⟩ := hcur key grant hgrant
      split at h
      next hrevoked =>
        split at h
        · cases h
          refine ⟨grant,rfl,hvalid,hrevoked,revokeKey_ok hkey,?_⟩
          -- a grant that is revoked already is stored as it is
          apply ext_getElem?
          intro k
          rw [Map.getElem?_insert_eq]
          split
          next heq => rw [← heq,hgrant]
          next => rfl
        · cases h
      · cases h
        exact ⟨_,rfl,hvalid,rfl,revokeKey_ok hkey,rfl⟩

theorem getElem?_of_notMem_pending {m : Map Grant} {pending : Map PendingRevocation} {k : String} (h : k ∉ pending) :
    (grants.applyPending pending m)[k]? = m[k]? := by
  rw [grants.getElem?_applyPending,getElem?_eq_none h]
  cases m[k]? <;> rfl

section

variable (hs : grants.Canonical s.records)
include hs

theorem target_spec {result : Grant} (h : s.target tenant id none = some result) :
    grants.Valid result ∧ (tenant ≠ "" → grants.key result = recordKey tenant id) := by
  unfold Store.target at h
  dsimp only at h
  split at h
  next hne =>
    obtain ⟨hvalid, hkey⟩ := hs _ result h
    exact ⟨hvalid,fun _ => hkey.symm⟩
  next heq =>
    refine ⟨?_,fun hne => absurd hne heq⟩
    split at h
    next current hcurrent =>
      obtain ⟨⟨k, grant⟩, rfl, rfl⟩ := Option.map_eq_some_iff.mp h
      unfold byID at hcurrent
      split at hcurrent
      · cases hcurrent
      next hlist =>
        cases hcurrent
        have hmem : (k,grant) ∈ s.records.toList := (List.mem_filter.mp (hlist ▸ List.mem_singleton_self _)).1
        exact (hs k grant (mem_toList_iff_getElem?_eq_some.mp hmem)).1
      · cases hcurrent
    · cases h

theorem latch_insert {result : Grant} (hvalid : grants.Valid result) (p : PendingRevocation) :
    Latches grants (grants.key result) s (s.latch (grants.key result) p (s.records.insert (grants.key result) result)) := by
  apply latch_latches (hs.insert hvalid) mem_insert_self
  intro k hne
  rw [Map.getElem?_insert_eq,if_neg fun h => hne h.symm]

theorem revokeContext_spec (e : Ending) (tenant id reason : String) (now : Time) :
    Revokes grants Admits s e tenant id (s.revokeContext e tenant id reason now) := by
  have hspec := s.editLocked_spec grants e (Store.revokeEdit s tenant id reason now)
  unfold Store.revokeContext
  generalize s.editLocked grants e (Store.revokeEdit s tenant id reason now) = r at hspec
  cases hspec with
  | stopped =>
    dsimp only [Option.join]
    rw [if_pos rfl]
    split
    · exact .missed .kept
    next result htarget =>
      obtain ⟨hvalid, hkey⟩ := target_spec hs htarget
      exact .latched .kept hkey (latch_insert hs hvalid _)
  | unchanged hbase hedit =>
    have hcur := grants.canonical_applyPending (canonical_base hs hbase) s.pendingRevocations
    obtain ⟨-, h⟩ | ⟨result, rfl, -, hresult, hrevoked, hpending, hkey⟩ := revokeEdit_error hcur hedit
    · exact absurd rfl h
    · rw [getElem?_of_notMem_pending hpending] at hresult
      exact .unchanged hbase hkey hresult hrevoked
  | refused hbase hr hedit =>
    exact .missed (.learned hbase)
  | failed hbase he hedit =>
    have hcur := grants.canonical_applyPending (canonical_base hs hbase) s.pendingRevocations
    obtain ⟨result, rfl, hvalid, hrevoked, hkey, hnext⟩ := revokeEdit_ok hcur hedit
    have heffect : Effect grants Admits .deny e s _ := .failed hbase he ⟨result,hvalid,hrevoked,hnext⟩
    exact .latched heffect hkey (latch_insert (heffect.canonical hs) hvalid _)
  | confirmed hbase he hedit =>
    have hcur := grants.canonical_applyPending (canonical_base hs hbase) s.pendingRevocations
    obtain ⟨result, rfl, hvalid, hrevoked, hkey, rfl⟩ := revokeEdit_ok hcur hedit
    exact .confirmed hbase he hvalid hrevoked hkey

theorem perform_performs (op : Op) (e : Ending) : Performs grants Admits op.touch e s (s.perform op e).1 := by
  cases op with
  | upsert grant now => exact upsertContext_performs hs e grant false now
  | upsertReceived grant now => exact upsertContext_performs hs e grant true now
  | revoke id reason now => exact (revokeContext_spec hs e "" id reason now).performs
  | revokeForTenant tenant id reason now =>
    unfold Store.perform Store.revokeForTenantContext
    dsimp only
    split
    · exact .plain .kept
    · exact (revokeContext_spec hs e tenant id reason now).performs
  | refresh loaded => exact .plain (refreshShared_effect loaded)
  | removeTenant tenant =>
    apply removeTenant_performs hs (fun r hr => trimSpace_of_validKey hr)
    intro t t' id hvalid h
    rw [Store.keyTenant,takeWhile_recordKey (nul_notMem_of_validKey hvalid)] at h
    simpa using h

end

theorem revoked_admits (old new : Grant) (hold : grants.revoked old = true) (h : Admits old new) :
    grants.revoked new = true := by
  by_contra hnew
  have hold : old.status = "revoked" := beq_iff_eq.mp hold
  have hnew : (new.status != "revoked") = true := by simpa [grants] using hnew
  unfold Admits validateTransition at h
  rw [hold,hnew] at h
  simp at h

def machine : Machine Grant PendingRevocation Op where
  kind := grants
  admits := Admits
  touch := Op.touch
  perform s op e := (Store.perform s op e).1
  error s op e := (Store.perform s op e).2.error
  performs hs op e := perform_performs hs op e
  failed := by
    intro s op e t htouch herror he
    cases op with
    | removeTenant tenant => exact removeTenant_failed herror he
    | _ => cases htouch
  revoked_admits := revoked_admits

end DsseCore.DelegatedGrant
