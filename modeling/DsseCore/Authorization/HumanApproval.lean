import DsseCore.Authorization.Machine
import DsseCore.Go.Time

/-!
# The store of human approvals
-/

namespace DsseCore.HumanApproval

open Go Lib Authorization

structure Event where
  id : String
  tenantID : String
  approvalResult : String
  reason : Option String := none
  activatedAt : Option String := none
  expiresAt : Option String := none
  deriving DecidableEq

def approvalKey : String → String → String := recordKey

def Event.revoke (event : Event) (reason : Option String) : Event := { event with approvalResult := "revoked", reason }

def events : Kind Event (Option String) where
  tenantID := Event.tenantID
  id := Event.id
  revoked event := event.approvalResult == "revoked"
  deny reason event := event.revoke reason
  skipsInvalid := true
  tenantID_deny _ _ := rfl
  id_deny _ _ := rfl
  revoked_deny _ _ := rfl

abbrev Store := Node Event (Option String)

def resultIsTerminal (value : String) : Bool := value == "denied" || value == "expired" || value == "revoked"

/-- `none` when the transition is admitted. -/
def validateTransition (existing next : Event) : Option Refusal :=
  if resultIsTerminal existing.approvalResult && next.approvalResult == "approved" then
    some (.transition existing.id existing.approvalResult "approved")
  else if existing.approvalResult == "revoked" && next.approvalResult != "revoked" then
    some (.transition existing.id "revoked" next.approvalResult)
  else none

/-- The moment a field that is given and not empty stands for; `none` inside when it does not parse. -/
def moment (field : Option String) : Option (Option Time) :=
  (field.filter (· != "")).map Time.parseRFC3339

def occupiesApprovalSlot (event : Event) (now : Time) : Bool :=
  if resultIsTerminal event.approvalResult then false
  else match moment event.expiresAt with
    | some (some expiry) => decide (now < expiry)
    | _ => true

def isActive (event : Event) (now : Time) : Bool :=
  if event.approvalResult != "approved" then false
  else
    (match moment event.activatedAt with
      | none => true
      | some none => false
      | some (some activatedAt) => decide (activatedAt ≤ now)) &&
    (match moment event.expiresAt with
      | none => true
      | some none => false
      | some (some expiresAt) => decide (now < expiresAt))

def stringPtr (value : String) : Option String := if value = "" then none else some value

namespace Store

def upsertEdit (s : Store) (event : Event) (now : Time) (next : Map Event) : Except Refusal (Map Event) × Unit :=
  let key := approvalKey event.tenantID event.id
  let old := next[key]?
  if s.pendingRevocations.contains key && event.approvalResult != "revoked" then (.error .pending,())
  else match old.bind (validateTransition · event) with
    | some refusal => (.error refusal,())
    | none =>
      if 0 < s.capacity ∧ occupiesApprovalSlot event now ∧ ¬ old.any (occupiesApprovalSlot · now) ∧
          s.capacity ≤ (next.toList.filter fun current => occupiesApprovalSlot current.2 now).length then
        (.error .capacity,())
      else (.ok (next.insert key event),())

def upsertContext (s : Store) (e : Ending) (event : Event) (now : Time) : Store × Except StoreError Event :=
  if !validKey event.tenantID event.id then (s,.error .invalidKey)
  else
    let r := s.editLocked events e (upsertEdit s event now)
    match r.error with
    | some err => (r.node,.error err)
    | none => (r.node,.ok event)

def revokeEdit (tenant id reason : String) (next : Map Event) : Except Refusal (Map Event) × Option Event :=
  match Node.revokeKey events tenant id next with
  | .error refusal => (.error refusal,none)
  | .ok key =>
    match next[key]? with
    | none => (.error .noChange,none)
    | some event =>
      let result := if event.approvalResult != "revoked" then event.revoke (stringPtr reason) else event
      (.ok (next.insert key result),some result)

/-- A revocation that could not be saved denies in this process. -/
def latch (s : Store) (result : Event) : Store := { s with
  pendingRevocations := s.pendingRevocations.insert (approvalKey result.tenantID result.id) result.reason
  records := s.records.insert (approvalKey result.tenantID result.id) result }

def revokeContext (s : Store) (e : Ending) (tenant id reason : String) : Store × Option Event × Option StoreError :=
  let r := s.editLocked events e (revokeEdit tenant id reason)
  let found :=
    if r.error = some .persistence ∧ r.seen.join = none ∧ tenant ≠ "" then
      r.node.records[approvalKey tenant id]?.map fun event => event.revoke (stringPtr reason)
    else r.seen.join
  match r.error, found with
  | some err, some result => (latch r.node result,some result,some err)
  | err, found => (r.node,found,err)

def revokeForTenantContext (s : Store) (e : Ending) (tenant id reason : String) :
    Store × Option Event × Option StoreError :=
  if !validKey tenant id then (s,none,some .invalidKey) else revokeContext s e tenant id reason

def removeTenantContext (s : Store) (e : Ending) (tenant : String) : Store × Except StoreError ℕ :=
  s.removeTenant events Event.tenantID (fun tenant key => hasPrefix key (tenant ++ "\x00")) e tenant

end Store

inductive Op where
  | upsert (event : Event) (now : Time)
  | revoke (id reason : String)
  | revokeForTenant (tenant id reason : String)
  | refresh (loaded : Bool)
  | removeTenant (tenant : String)

structure Reply where
  error : Option StoreError
  event : Option Event

def Store.perform (s : Store) (op : Op) (e : Ending) : Store × Reply :=
  match op with
  | .upsert event now =>
    let r := s.upsertContext e event now
    (r.1,⟨errorOf r.2,r.2.toOption⟩)
  | .revoke id reason =>
    let r := s.revokeContext e "" id reason
    (r.1,⟨r.2.2,r.2.1⟩)
  | .revokeForTenant tenant id reason =>
    let r := s.revokeForTenantContext e tenant id reason
    (r.1,⟨r.2.2,r.2.1⟩)
  | .refresh loaded =>
    let r := s.refreshShared events loaded
    (r.1,⟨if r.2 then none else some .persistence,none⟩)
  | .removeTenant tenant =>
    let r := s.removeTenantContext e tenant
    (r.1,⟨errorOf r.2,none⟩)

def Op.touch : Op → Touch Event
  | .upsert event _ => .put event
  | .removeTenant tenant => .erase (trimSpace tenant)
  | _ => .deny

def Admits (old new : Event) : Prop := validateTransition old new = none

variable {s : Store} {e : Ending} {cur next : Map Event} {tenant id : String} {a : Option Event}

theorem upsertEdit_rewrites {event : Event} {now : Time} (hvalid : validKey event.tenantID event.id = true) {a : Unit}
    (h : Store.upsertEdit s event now cur = (.ok next,a)) :
    events.Rewrites Admits s.pendingRevocations (.put event) cur next := by
  unfold Store.upsertEdit at h
  dsimp only at h
  split at h
  · cases h
  next hpending =>
    split at h
    · cases h
    next hold =>
      split at h
      · cases h
      cases h
      refine ⟨hvalid,?_,?_,rfl⟩
      · intro hmem
        by_contra hne
        have hcontains : s.pendingRevocations.contains (approvalKey event.tenantID event.id) = true :=
          Std.ExtTreeMap.contains_iff_mem.mpr hmem
        have hresult : (event.approvalResult != "revoked") = true := by simpa [events] using hne
        exact hpending (by rw [hcontains,hresult]; rfl)
      · intro old hcur
        change cur[approvalKey event.tenantID event.id]? = some old at hcur
        rw [hcur] at hold
        exact hold

theorem revokeEdit_spec {reason : String} (hcur : events.Canonical cur)
    (h : Store.revokeEdit tenant id reason cur = (.ok next,a)) :
    ∃ result, a = some result ∧ events.Valid result ∧ events.revoked result = true ∧
      (tenant ≠ "" → events.key result = recordKey tenant id) ∧ next = cur.insert (events.key result) result := by
  unfold Store.revokeEdit at h
  split at h
  · cases h
  next key hkey =>
    split at h
    · cases h
    next event hevent =>
      obtain ⟨hvalid, rfl⟩ := hcur key event hevent
      cases h
      have htenant : tenant ≠ "" → events.key event = recordKey tenant id := Node.revokeKey_ok hkey
      refine ⟨_,rfl,?_⟩
      split
      · exact ⟨hvalid,rfl,htenant,rfl⟩
      next hrevoked => exact ⟨hvalid,by simpa [events] using hrevoked,htenant,rfl⟩

theorem latch_latches (s : Store) {result : Event} (hvalid : events.Valid result)
    (hrevoked : events.revoked result = true) : Latches events (events.key result) s (s.latch result) where
  persister := rfl
  authorityKnown := rfl
  row := rfl
  latched := Std.ExtTreeMap.mem_insert_self
  kept k hk := Std.ExtTreeMap.mem_insert.mpr (.inr hk)
  records k := by
    have hget : (s.latch result).records[k]? = if events.key result = k then some result else s.records[k]? :=
      Map.getElem?_insert_eq ..
    rw [hget]
    split
    next heq => exact .inr ⟨result,rfl,hvalid,heq.symm,hrevoked⟩
    next => exact .inl rfl
  denied := ⟨result,(Map.getElem?_insert_eq ..).trans (if_pos rfl),hrevoked⟩

theorem revokeEdit_error {reason : String} {r : Refusal} (h : Store.revokeEdit tenant id reason cur = (.error r,a)) :
    a = none := by
  unfold Store.revokeEdit at h
  split at h
  · cases h; rfl
  split at h
  · cases h; rfl
  · cases h

theorem revokeContext_spec (hs : events.Canonical s.records) (e : Ending) (tenant id reason : String) :
    Revokes events Admits s e tenant id (s.revokeContext e tenant id reason) := by
  have hspec := s.editLocked_spec events e (Store.revokeEdit tenant id reason)
  unfold Store.revokeContext
  generalize s.editLocked events e (Store.revokeEdit tenant id reason) = r at hspec
  cases hspec with
  | stopped =>
    dsimp only
    by_cases htenant : tenant = ""
    · rw [if_neg fun h => h.2.2 htenant]
      exact .missed .kept
    rw [if_pos ⟨rfl,rfl,htenant⟩]
    cases hrecord : s.records[approvalKey tenant id]? with
    | none => exact .missed .kept
    | some event =>
      obtain ⟨hvalid, hkey⟩ := hs _ event hrecord
      have hlatch : Latches events _ s (s.latch (event.revoke (stringPtr reason))) :=
        latch_latches s (events.valid_deny hvalid) rfl
      exact .latched .kept (fun _ => hkey.symm) hlatch
  | unchanged hbase hedit =>
    obtain rfl := revokeEdit_error hedit
    exact .missed (.read hbase)
  | refused hbase hr hedit =>
    obtain rfl := revokeEdit_error hedit
    exact .missed (.learned hbase)
  | failed hbase he hedit =>
    have hcur := events.canonical_applyPending (Node.canonical_base hs hbase) s.pendingRevocations
    obtain ⟨result, rfl, hvalid, hrevoked, hkey, rfl⟩ := revokeEdit_spec hcur hedit
    exact .latched (.failed hbase he ⟨result,hvalid,hrevoked,rfl⟩) hkey (latch_latches _ hvalid hrevoked)
  | confirmed hbase he hedit =>
    have hcur := events.canonical_applyPending (Node.canonical_base hs hbase) s.pendingRevocations
    obtain ⟨result, rfl, hvalid, hrevoked, hkey, rfl⟩ := revokeEdit_spec hcur hedit
    exact .confirmed hbase he hvalid hrevoked hkey

theorem upsertContext_performs (hs : events.Canonical s.records) (e : Ending) (event : Event) (now : Time) :
    Performs events Admits (.put event) e s (s.upsertContext e event now).1 := by
  unfold Store.upsertContext
  split
  · exact .plain .kept
  next hvalid =>
    have hvalid : validKey event.tenantID event.id = true := by simpa using hvalid
    have heffect := (s.editLocked_spec events e (Store.upsertEdit s event now)).effect
      (fun cur next a _ h => upsertEdit_rewrites hvalid h) fun cur => Node.canonical_base hs
    dsimp only
    split <;> exact .plain heffect

theorem hasPrefix_recordKey {tenant' : String} (hvalid : validKey tenant id = true)
    (h : hasPrefix (recordKey tenant id) (tenant' ++ "\x00") = true) : tenant = tenant' := by
  obtain ⟨rest, hrest⟩ := List.isPrefixOf_iff_prefix.mp h
  -- a valid key has one separator, so the tenant that is removed has none
  have hnul : '\x00' ∉ tenant'.toList := by
    have hcount := count_nul_recordKey hvalid
    rw [← hrest,String.toList_append,List.count_append,List.count_append] at hcount
    have hone : "\x00".toList.count '\x00' = 1 := rfl
    exact List.count_eq_zero.mp (by omega)
  have htake := takeWhile_recordKey (nul_notMem_of_validKey hvalid) id
  have hlist : tenant'.toList ++ ('\x00' :: rest) = (recordKey tenant id).toList := by
    rw [← hrest,String.toList_append,List.append_assoc]
    rfl
  rw [← hlist,List.takeWhile_append_of_pos] at htake
  · exact String.toList_inj.mp (by simpa using htake.symm)
  intro c hc
  simp only [bne_iff_ne]
  rintro rfl
  exact hnul hc

theorem perform_performs (hs : events.Canonical s.records) (op : Op) (e : Ending) :
    Performs events Admits op.touch e s (s.perform op e).1 := by
  cases op with
  | upsert event now => exact upsertContext_performs hs e event now
  | revoke id reason => exact (revokeContext_spec hs e "" id reason).performs
  | revokeForTenant tenant id reason =>
    unfold Store.perform Store.revokeForTenantContext
    dsimp only
    split
    · exact .plain .kept
    · exact (revokeContext_spec hs e tenant id reason).performs
  | refresh loaded => exact .plain (Node.refreshShared_effect loaded)
  | removeTenant tenant =>
    exact Node.removeTenant_performs hs (fun _ _ => rfl) fun t t' id hvalid h => hasPrefix_recordKey hvalid h

theorem revoked_admits (old new : Event) (hold : events.revoked old = true) (h : Admits old new) :
    events.revoked new = true := by
  by_contra hnew
  have hold : old.approvalResult = "revoked" := beq_iff_eq.mp hold
  have hnew : (new.approvalResult != "revoked") = true := by simpa [events] using hnew
  unfold Admits validateTransition at h
  rw [hold,hnew] at h
  split at h
  · contradiction
  · simp at h

def machine : Machine Event (Option String) Op where
  kind := events
  admits := Admits
  touch := Op.touch
  perform s op e := (Store.perform s op e).1
  error s op e := (Store.perform s op e).2.error
  performs hs op e := perform_performs hs op e
  failed := by
    intro s op e t htouch herror he
    cases op with
    | removeTenant tenant => exact Node.removeTenant_failed herror he
    | _ => cases htouch
  revoked_admits := revoked_admits

end DsseCore.HumanApproval
