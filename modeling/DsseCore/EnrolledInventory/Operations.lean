import DsseCore.EnrolledInventory.Ledger

/-!
# The operations on a ledger

An operation proposes rows and settles them: what is in memory and what is stored afterwards are each either as before
or as proposed.  What can be proposed for one row is said once for all operations, and the claims about whole runs are
read off from that.
-/

namespace DsseCore.EnrolledInventory

open Go Ledger

variable {r : Option Entry} {tenantID group note : String} {op : LedgerOp} {ok : Bool}

variable {α : Type} {save : SaveOutcome} {rows fresh : Map Entry} {a : α} {k now : String} {e : Entry}
  {mayReEnable : Bool} {es : List Entry} {l : Ledger}
variable {σ : Type}

inductive LedgerOp where
  | enrollDevice (id tenantID group note now machineRef : String)
  | enrolmentReport (id tenantID group note machineRef now : String)
  | enrollGroup (id tenantID group note now : String) (mayReEnable : Bool)
  | enrollGroupForTenant (id claimant assignTo group note now : String) (adoptUnassigned : Bool)
  | setGroup (id group now : String)
  | setEnabled (id tenant : String) (enabled : Bool) (now : String)
  | reportedMachine (id machineRef now : String)
  | allowReenrolment (id callerTenant now : String)
  | remove (id now : String)
  | retireTenant (tenantID now : String)
  | merge (entries : List Entry) (now : String)
  | reload (readable : Bool)
  | restart (readable : Bool)

def Node.exec (claimer : Option (IdentityClaimer σ)) (n : Node σ) (save : SaveOutcome) : LedgerOp → Bool × Node σ
  | .enrollDevice id tenantID group note now machineRef =>
    let r := enrollDeviceForTenantWithMachine claimer save id tenantID group note now machineRef n
    (r.1.isOk,r.2)
  | .enrolmentReport id tenantID group note machineRef now =>
    onLedger (n.ledger.recordEnrolmentReport save id tenantID group note machineRef now)
  | .enrollGroup id tenantID group note now mayReEnable =>
    onLedger (n.ledger.enrollGroup save id tenantID group note now mayReEnable)
  | .enrollGroupForTenant id claimant assignTo group note now adoptUnassigned =>
    onLedger (n.ledger.enrollGroupForTenant save id claimant assignTo group note now adoptUnassigned)
  | .setGroup id group now => onLedger (n.ledger.setGroup save id group now)
  | .setEnabled id tenant enabled now => onLedger (n.ledger.setEnabledForTenant save id tenant enabled now)
  | .reportedMachine id machineRef now => onLedger (n.ledger.recordReportedMachine save id machineRef now)
  | .allowReenrolment id callerTenant now => onLedger (n.ledger.allowReenrolment save id callerTenant now)
  | .remove id now => onLedger (n.ledger.removeChecked save id now)
  | .retireTenant tenantID now => onLedger (n.ledger.retireTenantChecked save tenantID now)
  | .merge entries now => onLedger (n.ledger.mergeAuthoritative save entries now)
  | .reload readable => onLedger (n.ledger.reloadFromStore readable)
  | .restart readable => onLedger (n.ledger.restart readable)
where
  onLedger {α : Type} (r : Except LedgerError α × Ledger) : Bool × Node σ := (r.1.isOk,{ n with ledger := r.2 })

variable {l' : Ledger} {c : Map Entry} {complete : Entry → Entry}

/-- How the rows `c` an operation proposes are settled; `ok` is whether it answers success. -/
structure Settled (l : Ledger) (c : Map Entry) (ok : Bool) (l' : Ledger) : Prop where
  persister : l'.persister = l.persister
  blocked : l'.persistBlocked = l.persistBlocked
  entries : l'.entries = l.entries ∨ l'.entries = c
  stored : l'.stored = l.stored ∨ l'.stored = .file true c
  accepted : ok = true → l'.entries = c
  saved : ok = true → l.persister = true → l.persistBlocked = false ∧ l'.stored = .file true c
  refused : l.persister = true → l.persistBlocked = true → l'.stored = l.stored

theorem settled_commit (rollback : Bool) (save : SaveOutcome) (c : Map Entry) (a : α) (l : Ledger) :
    Settled l c (l.commit rollback save c a).1.isOk (l.commit rollback save c a).2 := by
  unfold commit persistCheckedLocked write
  cases hp : l.persister with
  | false => exact ⟨by simpa using hp,rfl,.inr rfl,.inl rfl,fun _ => rfl,by simp [hp],fun _ _ => rfl⟩
  | true =>
    cases hb : l.persistBlocked with
    | true =>
      cases rollback with
      | true => exact ⟨by simpa using hp,by simpa using hb,.inl rfl,.inl rfl,nofun,nofun,fun _ _ => rfl⟩
      | false => exact ⟨by simpa using hp,by simpa using hb,.inr rfl,.inl rfl,nofun,nofun,fun _ _ => rfl⟩
    | false =>
      have hrefused : ∀ {s : Snapshot}, l.persister = true → l.persistBlocked = true → s = l.stored := by simp [hb]
      cases save with
      | saved =>
        exact ⟨by simpa using hp,by simpa using hb,.inr rfl,.inr rfl,fun _ => rfl,fun _ _ => ⟨hb,rfl⟩,hrefused⟩
      | inPlace =>
        exact ⟨by simpa using hp,by simpa using hb,.inr rfl,.inr rfl,fun _ => rfl,fun _ _ => ⟨hb,rfl⟩,hrefused⟩
      | unconfirmed =>
        cases rollback with
        | true => exact ⟨by simpa using hp,by simpa using hb,.inl rfl,.inr rfl,nofun,nofun,hrefused⟩
        | false => exact ⟨by simpa using hp,by simpa using hb,.inr rfl,.inr rfl,nofun,nofun,hrefused⟩
      | failed =>
        cases rollback with
        | true => exact ⟨by simpa using hp,by simpa using hb,.inl rfl,.inl rfl,nofun,nofun,hrefused⟩
        | false => exact ⟨by simpa using hp,by simpa using hb,.inr rfl,.inl rfl,nofun,nofun,hrefused⟩

theorem commit_ok {rollback : Bool} {b : α} (h : l.commit rollback save rows a = (.ok b,l')) :
    b = a ∧ Settled l rows true l' := by
  have hs := settled_commit rollback save rows a l
  rw [h] at hs
  refine ⟨?_,hs⟩
  unfold commit at h
  split at h
  · exact (Except.ok.inj (Prod.mk.inj h).1).symm
  · cases (Prod.mk.inj h).1

theorem commit_unsaved {rollback : Bool} (hp : l.persister = true) (h : save = .failed ∨ l.persistBlocked = true) :
    (l.commit rollback save rows a).1.isOk = false := by
  obtain ⟨entries, persister, stored, blocked, known⟩ := l
  cases hp
  cases blocked with
  | true => rfl
  | false =>
    obtain rfl := h.resolve_right Bool.false_ne_true
    rfl

theorem commit_undone (h : (l.commit true save rows a).1.isOk = false)
    (hsave : save ≠ .unconfirmed ∨ l.persistBlocked = true) : (l.commit true save rows a).2 = l := by
  obtain ⟨entries, persister, stored, blocked, known⟩ := l
  cases persister with
  | false => cases h
  | true =>
    cases blocked with
    | true => rfl
    | false =>
      cases save with
      | saved => cases h
      | inPlace => cases h
      | unconfirmed => exact absurd hsave (by simp)
      | failed => rfl

/-- What an operation can propose for the row of `k`. -/
inductive RowChange (op : LedgerOp) (k : String) : Option Entry → Option Entry → Prop
  | same (r : Option Entry) : RowChange op k r r
  | created {e : Entry} (hkey : normalizeIdentity k = k) (hid : e.identity = k) (hnonce : e.reenrolmentNonce = 0)
    (hdevice : e.deviceEnrolledNonce = 0) : RowChange op k none (some e)
  | kept {e e' : Entry} (hid : e'.identity = e.identity) (hnonce : e'.reenrolmentNonce = e.reenrolmentNonce)
    (hmark : e'.deviceEnrolledAt = e.deviceEnrolledAt) (hdevice : e'.deviceEnrolledNonce = e.deviceEnrolledNonce) :
    RowChange op k (some e) (some e')
  | enrolled {r : Option Entry} {e' : Entry} (hkey : normalizeIdentity k = k)
    (hid : ∀ e, r = some e → e'.identity = e.identity) (hnew : r = none → e'.identity = k)
    (hnonce : e'.reenrolmentNonce = (r.map Entry.reenrolmentNonce).getD 0)
    (hdevice : e'.deviceEnrolledNonce = e'.reenrolmentNonce)
    (hop : (∃ id t g m now ref, op = .enrollDevice id t g m now ref ∧ normalizeIdentity id = k) ∨
      ∃ id t g m ref now, op = .enrolmentReport id t g m ref now ∧ normalizeIdentity id = k) :
    RowChange op k r (some e')
  | permitted {id t now : String} {e : Entry} (hop : op = .allowReenrolment id t now) (hk : normalizeIdentity id = k) :
    RowChange op k (some e) (some (permit now e))
  | removed {id now : String} {e : Entry} (hop : op = .remove id now) (hk : normalizeIdentity id = k) :
    RowChange op k (some e) (some (tombstone now e))
  | purged {id now : String} {at_ : Time} {e : Entry} (hop : op = .remove id now)
    (hat : Time.parseRFC3339 (trimSpace now) = some at_) (hexp : expired at_ e = true) :
    RowChange op k (some e) none
  | retired {t now : String} {e : Entry} (hop : op = .retireTenant t now) :
    RowChange op k (some e) (some (retire now e))

inductive Changes (op : LedgerOp) (l : Ledger) : Bool → Ledger → Prop
  | nothing {ok : Bool} : Changes op l ok l
  | proposed {ok : Bool} {l' : Ledger} (rows : Map Entry) (hrows : ∀ k, RowChange op k l.entries[k]? rows[k]?)
    (hsettled : Settled l rows ok l') : Changes op l ok l'

/-- The row that an operation writes under `k`, with what it has looked at before. -/
inductive Writes (l : Ledger) (k : String) : LedgerOp → Entry → Prop
  | enrollDevice (id t g m now ref e) (hk : normalizeIdentity id = k)
    (hfree : l.refuseLocally k t (normalizeMachineRef ref) = none)
    (hbase : enrollBase k now false l.entries[k]? = .ok e) :
    Writes l k (.enrollDevice id t g m now ref) (deviceFields now (normalizeMachineRef ref) (enrollFields t g m now e))
  | enrolmentReport (id t g m ref now e) (hk : normalizeIdentity id = k)
    (hfree : l.entries[k]?.bind (refuseReport t) = none) (hbase : enrollBase k now false l.entries[k]? = .ok e) :
    Writes l k (.enrolmentReport id t g m ref now) (reportFields now ref (enrollFields t g m now e))
  | enrollGroup (id t g m now mayReEnable e) (hk : normalizeIdentity id = k)
    (hbase : enrollBase k now mayReEnable l.entries[k]? = .ok e) :
    Writes l k (.enrollGroup id t g m now mayReEnable) (enrollFields t g m now e)
  | enrollGroupForTenant (id claimant t g m now adopt e) (hk : normalizeIdentity id = k)
    (hbase : enrollBase k now true l.entries[k]? = .ok e) :
    Writes l k (.enrollGroupForTenant id claimant t g m now adopt) (enrollFields t g m now e)
  | setGroup (id g now e) (hk : normalizeIdentity id = k) (he : l.entries[k]? = some e) (hlive : e.isTombstone = false) :
    Writes l k (.setGroup id g now) { e with group := trimSpace g, updatedAt := now }
  | setEnabled (id t enabled now e) (hk : normalizeIdentity id = k) (he : l.entries[k]? = some e)
    (hlive : e.isTombstone = false) :
    Writes l k (.setEnabled id t enabled now) { e with enabled := enabled, updatedAt := now }
  | reportedMachine (id ref now e) (hk : normalizeIdentity id = k) (he : l.entries[k]? = some e)
    (hlive : e.isTombstone = false) :
    Writes l k (.reportedMachine id ref now) { e with machineRef := normalizeMachineRef ref, updatedAt := now }
  | allowReenrolment (id t now e) (hk : normalizeIdentity id = k) (he : l.entries[k]? = some e) :
    Writes l k (.allowReenrolment id t now) (permit now e)
  | remove (id now e) (hk : normalizeIdentity id = k) (he : l.entries[k]? = some e) :
    Writes l k (.remove id now) (tombstone now e)

/-- The row that an operation proposes for `k`. -/
inductive Proposes (op : LedgerOp) (l : Ledger) (k : String) : Option Entry → Prop
  | same {r : Option Entry} (h : l.entries[k]? = r) : Proposes op l k r
  | written {e : Entry} (h : Writes l k op e) : Proposes op l k (some e)
  | purged {id now : String} {at_ : Time} {e : Entry} (hop : op = .remove id now)
    (hat : Time.parseRFC3339 (trimSpace now) = some at_) (he : l.entries[k]? = some e) (hexp : expired at_ e = true) :
    Proposes op l k none
  | retired {t now : String} {e : Entry} (hop : op = .retireTenant t now) (he : l.entries[k]? = some e) :
    Proposes op l k (some (retire now e))

inductive Edited (op : LedgerOp) (l : Ledger) : Bool → Ledger → Prop
  | nothing {ok : Bool} : Edited op l ok l
  | proposed {ok : Bool} {l' : Ledger} (rows : Map Entry) (hrows : ∀ k, Proposes op l k rows[k]?)
    (hsettled : Settled l rows ok l') : Edited op l ok l'

theorem edited_insert (h : Writes l k op e) (rollback : Bool) (save : SaveOutcome) (a : α) :
    Edited op l (l.commit rollback save (l.entries.insert k e) a).1.isOk
      (l.commit rollback save (l.entries.insert k e) a).2 := by
  refine .proposed _ (fun k' => ?_) (settled_commit rollback save _ a l)
  rw [Map.getElem?_insert_eq]
  split
  · next hk => exact hk ▸ .written h
  · exact .same rfl

theorem enrollBase_ok (h : enrollBase k now mayReEnable r = .ok e) :
    (r = none ∧ e = { identity := k, enrolledAt := now }) ∨
      r = some e ∧ e.isTombstone = false ∧ (e.enabled = true ∨ mayReEnable = true) := by
  cases r with
  | none => exact .inl ⟨rfl,(Except.ok.inj h).symm⟩
  | some e₀ =>
    unfold enrollBase at h
    dsimp only at h
    split at h
    · cases h
    rename_i hlive
    split at h
    · cases h
    rename_i henabled
    obtain rfl := Except.ok.inj h
    exact .inr ⟨rfl,by simpa using hlive,by simpa [or_iff_not_imp_left] using henabled⟩

theorem edited_enroll
    (h : ∀ e, enrollBase k now mayReEnable l.entries[k]? = .ok e → Writes l k op (complete (enrollFields tenantID group note now e)))
    (rollback : Bool) (save : SaveOutcome) :
    Edited op l (l.enrollGroupMutateLocked rollback save k tenantID group note now mayReEnable complete).1.isOk
      (l.enrollGroupMutateLocked rollback save k tenantID group note now mayReEnable complete).2 := by
  unfold enrollGroupMutateLocked
  cases hb : enrollBase k now mayReEnable l.entries[k]? with
  | error e => exact .nothing
  | ok e => exact edited_insert (h e hb) rollback save _

theorem edited_editLive {admits : Entry → Bool} {f : Entry → Entry}
    (h : ∀ e, l.entries[k]? = some e → e.isTombstone = false → Writes l k op (f e)) (rollback : Bool)
    (save : SaveOutcome) :
    Edited op l (l.editLive rollback save k admits f).1.isOk (l.editLive rollback save k admits f).2 := by
  unfold editLive
  cases hr : l.entries[k]? with
  | none => exact .nothing
  | some e =>
    dsimp only
    split
    · exact .nothing
    rename_i hlive
    rw [Bool.or_eq_true,not_or,Bool.not_eq_true] at hlive
    exact edited_insert (h e hr hlive.1) rollback save _

theorem edited_allowReenrolment (save : SaveOutcome) (id callerTenant now : String) :
    Edited (.allowReenrolment id callerTenant now) l (l.allowReenrolment save id callerTenant now).1.isOk
      (l.allowReenrolment save id callerTenant now).2 := by
  unfold allowReenrolment
  dsimp only
  split
  · exact .nothing
  cases hr : l.entries[normalizeIdentity id]? with
  | none => exact .nothing
  | some e =>
    dsimp only
    split
    · exact .nothing
    · exact edited_insert (.allowReenrolment id callerTenant now e rfl hr) true save _

theorem getElem?_purge (now : String) (entries : Map Entry) (k : String) :
    (purgeExpiredTombstonesLocked now entries)[k]? = entries[k]? ∨
      ∃ at_ e, Time.parseRFC3339 (trimSpace now) = some at_ ∧ entries[k]? = some e ∧ expired at_ e = true ∧
        (purgeExpiredTombstonesLocked now entries)[k]? = none := by
  unfold purgeExpiredTombstonesLocked
  cases hat : Time.parseRFC3339 (trimSpace now) with
  | none => exact .inl rfl
  | some at_ =>
    rw [Std.ExtTreeMap.getElem?_filter]
    cases hr : entries[k]? with
    | none => exact .inl rfl
    | some e =>
      cases hexp : expired at_ e with
      | false => exact .inl (by simp [Option.pfilter,hexp])
      | true => exact .inr ⟨at_,e,rfl,rfl,hexp,by simp [Option.pfilter,hexp]⟩

theorem not_expired_tombstone {at_ : Time} (hat : Time.parseRFC3339 (trimSpace now) = some at_) (e : Entry) :
    expired at_ (tombstone now e) = false := by
  have hsub : Time.sub at_ at_ = 0 := by
    unfold Time.sub
    rw [sub_self]
    rfl
  unfold expired tombstone
  simp only [hat,Option.any_some,hsub,Bool.and_eq_false_imp]
  exact fun _ => by decide

theorem edited_remove (save : SaveOutcome) (id now : String) :
    Edited (.remove id now) l (l.removeChecked save id now).1.isOk (l.removeChecked save id now).2 := by
  unfold removeChecked
  dsimp only
  cases hr : l.entries[normalizeIdentity id]? with
  | none => exact .nothing
  | some e =>
    dsimp only
    split
    · exact .nothing
    refine .proposed _ (fun k => ?_) (settled_commit true save _ _ l)
    rcases getElem?_purge now (l.entries.insert (normalizeIdentity id) (tombstone now e)) k with
      h | ⟨at_, e', hat, hin, hexp, h⟩ <;> rw [h]
    · rw [Map.getElem?_insert_eq]
      split
      · next hk => exact .written (.remove id now e hk (hk ▸ hr))
      · exact .same rfl
    · rw [Map.getElem?_insert_eq] at hin
      split at hin
      · rw [← Option.some.inj hin,not_expired_tombstone hat] at hexp
        cases hexp
      · exact .purged rfl hat hin hexp

theorem edited_retireTenant (save : SaveOutcome) (tenantID now : String) :
    Edited (.retireTenant tenantID now) l (l.retireTenantChecked save tenantID now).1.isOk
      (l.retireTenantChecked save tenantID now).2 := by
  unfold retireTenantChecked
  split_ifs
  · exact .nothing
  · exact .nothing
  · exact .nothing
  dsimp only
  split
  · exact .nothing
  refine .proposed _ (fun k => ?_) (settled_commit false save _ _ l)
  rw [Std.ExtTreeMap.getElem?_map]
  cases hr : l.entries[k]? with
  | none => exact .same hr
  | some e =>
    rw [Option.map_some]
    unfold retireRow
    split
    · exact .same hr
    split
    · exact .same hr
    · exact .retired rfl hr

/-- A device enrolment leaves the ledger, or it ends as the write of its row does. -/
theorem enrollDevice_cases (claimer : Option (IdentityClaimer σ)) (n : Node σ) (save : SaveOutcome)
    (id tenantID group note now machineRef : String) :
    (∃ err, (enrollDeviceForTenantWithMachine claimer save id tenantID group note now machineRef n).1 = .error err) ∧
        (enrollDeviceForTenantWithMachine claimer save id tenantID group note now machineRef n).2.ledger = n.ledger ∨
      n.ledger.refuseLocally (normalizeIdentity id) tenantID (normalizeMachineRef machineRef) = none ∧
      ((enrollDeviceForTenantWithMachine claimer save id tenantID group note now machineRef n).1,
        (enrollDeviceForTenantWithMachine claimer save id tenantID group note now machineRef n).2.ledger) =
        n.ledger.enrollGroupMutateLocked true save (normalizeIdentity id) tenantID group note now false
          (deviceFields now (normalizeMachineRef machineRef)) := by
  unfold enrollDeviceForTenantWithMachine
  dsimp only
  split
  · exact .inl ⟨⟨_,rfl⟩,rfl⟩
  split
  · exact .inl ⟨⟨_,rfl⟩,rfl⟩
  rename_i hfree
  split
  · exact .inl ⟨⟨_,rfl⟩,rfl⟩
  refine .inr ⟨hfree,?_⟩
  split
  · next he => exact he.symm
  · next he => exact he.symm

/-- The operations that edit the rows they find, as opposed to taking over rows from elsewhere. -/
def LedgerOp.Edits : LedgerOp → Prop
  | .merge _ _ | .reload _ | .restart _ => False
  | _ => True

theorem Node.exec_edited (claimer : Option (IdentityClaimer σ)) (n : Node σ) (save : SaveOutcome) (hop : op.Edits) :
    Edited op n.ledger (n.exec claimer save op).1 (n.exec claimer save op).2.ledger := by
  cases op <;> dsimp only [Node.exec,Node.exec.onLedger]
  case enrollDevice id t g m now ref =>
    rcases enrollDevice_cases claimer n save id t g m now ref with ⟨-, h⟩ | ⟨hfree, h⟩
    · rw [h]
      exact .nothing
    obtain ⟨hresult, hledger⟩ := Prod.ext_iff.mp h
    dsimp only at hresult hledger
    rw [hresult,hledger]
    exact edited_enroll (fun e he => .enrollDevice id t g m now ref e rfl hfree he) true save
  case enrolmentReport id t g m ref now =>
    unfold recordEnrolmentReport
    dsimp only
    split
    · exact .nothing
    split
    · exact .nothing
    · next hfree => exact edited_enroll (fun e he => .enrolmentReport id t g m ref now e rfl hfree he) true save
  case enrollGroup id t g m now mayReEnable =>
    unfold enrollGroup
    dsimp only
    split
    · exact .nothing
    · exact edited_enroll (fun e he => .enrollGroup id t g m now mayReEnable e rfl he) false save
  case enrollGroupForTenant id claimant t g m now adopt =>
    unfold enrollGroupForTenant
    dsimp only
    split
    · exact .nothing
    split
    · exact .nothing
    · exact edited_enroll (fun e he => .enrollGroupForTenant id claimant t g m now adopt e rfl he) false save
  case setGroup id g now => exact edited_editLive (fun e he hlive => .setGroup id g now e rfl he hlive) false save
  case setEnabled id t enabled now =>
    exact edited_editLive (fun e he hlive => .setEnabled id t enabled now e rfl he hlive) true save
  case reportedMachine id ref now =>
    unfold recordReportedMachine
    dsimp only
    split
    · exact .nothing
    · exact edited_editLive (fun e he hlive => .reportedMachine id ref now e rfl he hlive) true save
  case allowReenrolment id callerTenant now => exact edited_allowReenrolment save id callerTenant now
  case remove id now => exact edited_remove save id now
  case retireTenant tenantID now => exact edited_retireTenant save tenantID now
  case merge => exact hop.elim
  case reload => exact hop.elim
  case restart => exact hop.elim

theorem rowChange_enrolled (hkey : normalizeIdentity k = k) (h : enrollBase k now mayReEnable r = .ok e)
    (hid : ∀ e, (complete e).identity = e.identity) (hnonce : ∀ e, (complete e).reenrolmentNonce = e.reenrolmentNonce)
    (hdevice : ∀ e, (complete e).deviceEnrolledNonce = e.reenrolmentNonce)
    (hop : (∃ id t g m now ref, op = .enrollDevice id t g m now ref ∧ normalizeIdentity id = k) ∨ ∃ id t g m ref now, op = .enrolmentReport id t g m ref now ∧ normalizeIdentity id = k) :
    RowChange op k r (some (complete (enrollFields tenantID group note now e))) := by
  have hnonces := (hdevice (enrollFields tenantID group note now e)).trans (hnonce _).symm
  rcases enrollBase_ok h with ⟨rfl, rfl⟩ | ⟨rfl, -⟩
  · exact .enrolled hkey nofun (fun _ => hid _) (hnonce _) hnonces hop
  · exact .enrolled hkey (fun _ h => Option.some.inj h ▸ hid _) nofun (hnonce _) hnonces hop

theorem rowChange_enrollGroup (hkey : normalizeIdentity k = k) (h : enrollBase k now mayReEnable r = .ok e) :
    RowChange op k r (some (enrollFields tenantID group note now e)) := by
  rcases enrollBase_ok h with ⟨rfl, rfl⟩ | ⟨rfl, -⟩
  · exact .created hkey rfl rfl rfl
  · exact .kept rfl rfl rfl rfl

theorem Writes.rowChange (h : Writes l k op e) : RowChange op k l.entries[k]? (some e) := by
  have hkey : ∀ {id}, normalizeIdentity id = k → normalizeIdentity k = k := fun h =>
    h ▸ normalizeIdentity_normalizeIdentity _
  cases h with
  | enrollDevice id t g m now ref e hk _ hbase =>
    exact rowChange_enrolled (hkey hk) hbase (fun _ => rfl) (fun _ => rfl) (fun _ => rfl) (.inl ⟨_,_,_,_,_,_,rfl,hk⟩)
  | enrolmentReport id t g m ref now e hk _ hbase =>
    exact rowChange_enrolled (hkey hk) hbase (fun _ => rfl) (fun _ => rfl) (fun _ => rfl) (.inr ⟨_,_,_,_,_,_,rfl,hk⟩)
  | enrollGroup id t g m now mayReEnable e hk hbase => exact rowChange_enrollGroup (hkey hk) hbase
  | enrollGroupForTenant id claimant t g m now adopt e hk hbase => exact rowChange_enrollGroup (hkey hk) hbase
  | setGroup id g now e hk he => exact he ▸ .kept rfl rfl rfl rfl
  | setEnabled id t enabled now e hk he => exact he ▸ .kept rfl rfl rfl rfl
  | reportedMachine id ref now e hk he => exact he ▸ .kept rfl rfl rfl rfl
  | allowReenrolment id t now e hk he => exact he ▸ .permitted rfl hk
  | remove id now e hk he => exact he ▸ .removed rfl hk

theorem Proposes.rowChange (h : Proposes op l k r) : RowChange op k l.entries[k]? r := by
  cases h with
  | same h => exact h ▸ .same _
  | written h => exact h.rowChange
  | purged hop hat he hexp => exact he ▸ .purged hop hat hexp
  | retired hop he => exact he ▸ .retired hop

theorem Edited.changes (h : Edited op l ok l') : Changes op l ok l' := by
  cases h with
  | nothing => exact .nothing
  | proposed rows hrows hsettled => exact .proposed rows (fun k => (hrows k).rowChange) hsettled

theorem Node.exec_changes (claimer : Option (IdentityClaimer σ)) (n : Node σ) (save : SaveOutcome) (hop : op.Edits) :
    Changes op n.ledger (n.exec claimer save op).1 (n.exec claimer save op).2.ledger :=
  (n.exec_edited claimer save hop).changes

theorem Changes.row (h : Changes op l ok l') (k : String) : RowChange op k l.entries[k]? l'.entries[k]? := by
  cases h with
  | nothing => exact .same _
  | proposed rows hrows hsettled =>
    rcases hsettled.entries with h | h <;> rw [h]
    · exact .same _
    · exact hrows k

variable {entries : Map Entry}

theorem mem_mergeRows {r : Entry} (h : (mergeRows now entries es fresh)[k]? = some r) :
    fresh[k]? = some r ∨ ∃ e ∈ es, normalizeIdentity e.identity = k ∧ r = mergeRow now entries[k]? e := by
  induction es generalizing fresh with
  | nil => exact .inl h
  | cons e es ih =>
    rcases ih h with hin | ⟨e', he', hk, hr⟩
    · split at hin
      · exact .inl hin
      rw [Map.getElem?_insert_eq] at hin
      split at hin
      · next hk =>
        subst hk
        exact .inr ⟨e,List.mem_cons_self,rfl,(Option.some.inj hin).symm⟩
      · exact .inl hin
    · exact .inr ⟨e',List.mem_cons_of_mem _ he',hk,hr⟩

theorem mergeRows_isSome (h : fresh[k]?.isSome = true) :
    (mergeRows now entries es fresh)[k]?.isSome = true := by
  induction es generalizing fresh with
  | nil => exact h
  | cons e es ih =>
    apply ih
    split
    · exact h
    rw [Map.getElem?_insert_eq]
    split
    · rfl
    · exact h

theorem mergeRows_named (hk : k ≠ "") (h : ∃ e ∈ es, normalizeIdentity e.identity = k) :
    ∃ r, (mergeRows now entries es fresh)[k]? = some r := by
  induction es generalizing fresh with
  | nil =>
    obtain ⟨e, he, -⟩ := h
    exact absurd he List.not_mem_nil
  | cons e es ih =>
    unfold mergeRows
    by_cases he : normalizeIdentity e.identity = k
    · refine Option.isSome_iff_exists.mp (mergeRows_isSome ?_)
      rw [he,if_neg hk,Map.getElem?_insert_eq,if_pos rfl]
      rfl
    obtain ⟨e', he', hk'⟩ := h
    rcases List.mem_cons.mp he' with rfl | he'
    · exact absurd hk' he
    · exact ih ⟨e',he',hk'⟩

theorem getElem?_mergeRows (hk : k ≠ "") (huniq : ∀ e' ∈ es, normalizeIdentity e'.identity = k → e' = e)
    (hid : normalizeIdentity e.identity = k) (h : e ∈ es ∨ fresh[k]? = some (mergeRow now entries[k]? e)) :
    (mergeRows now entries es fresh)[k]? = some (mergeRow now entries[k]? e) := by
  induction es generalizing fresh with
  | nil => exact h.resolve_left List.not_mem_nil
  | cons e₀ es ih =>
    apply ih fun e' he' => huniq e' (List.mem_cons_of_mem _ he')
    by_cases he : normalizeIdentity e₀.identity = k
    · obtain rfl := huniq e₀ List.mem_cons_self he
      right
      rw [he,if_neg hk,Map.getElem?_insert_eq,if_pos rfl]
    rcases h with h | h
    · rcases List.mem_cons.mp h with rfl | h
      · exact absurd hid he
      · exact .inl h
    right
    split
    · exact h
    · rwa [Map.getElem?_insert_eq,if_neg he]

theorem mem_authoritative : e ∈ l.authoritative ↔ ∃ k : String, l.entries[k]? = some e := by
  unfold authoritative
  rw [mem_sliceStable,List.mem_map]
  constructor
  · rintro ⟨⟨k, e'⟩, hmem, rfl⟩
    exact ⟨k,Std.ExtTreeMap.mem_toList_iff_getElem?_eq_some.mp hmem⟩
  · rintro ⟨k, hk⟩
    exact ⟨(k,e),Std.ExtTreeMap.mem_toList_iff_getElem?_eq_some.mpr hk,rfl⟩

theorem settled_mergeAuthoritative (save : SaveOutcome) (es : List Entry) (now : String) (l : Ledger) :
    Settled l (mergeRows now l.entries es ∅) (l.mergeAuthoritative save es now).1.isOk
      (l.mergeAuthoritative save es now).2 :=
  settled_commit true save _ _ l

end DsseCore.EnrolledInventory
