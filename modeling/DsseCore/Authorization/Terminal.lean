import DsseCore.Authorization.DelegatedGrant
import DsseCore.Authorization.HumanApproval
import DsseCore.Lib.Run

/-!
# Terminal authorizations

Both stores check a transition one step at a time.  A record that is terminal stays so as long as nothing outside the
results the stores know is stored in its place; with such a result in between it can become active again.
-/

namespace DsseCore

open Go Lib Authorization

variable {now : Time} {op : Op}

namespace HumanApproval

variable {s s' : Store} {e : Ending} {tenant id : String} {event : Event}

def Event.Terminal (event : Event) : Prop := resultIsTerminal event.approvalResult = true

instance (event : Event) : Decidable event.Terminal := by unfold Event.Terminal; infer_instance

/-- A write that succeeded and left a terminal event under the tenant and the id. -/
def Op.Confirms (tenant id : String) : Op → Reply → Prop
  | .upsert event _, r => event.tenantID = tenant ∧ event.id = id ∧ event.Terminal ∧ r.error = none
  | .revoke _ _, r => r.error = none ∧ ∃ event, r.event = some event ∧ event.tenantID = tenant ∧ event.id = id
  | .revokeForTenant t i _, r => t = tenant ∧ i = id ∧ r.error = none ∧ r.event ≠ none
  | _, _ => False

/-- What is asked of a later operation: an event that it stores under the tenant and the id is approved or terminal. -/
def Op.Orderly (tenant id : String) : Op → Prop
  | .upsert event _ => event.tenantID = tenant → event.id = id → event.approvalResult = "approved" ∨ event.Terminal
  | _ => True

theorem terminal_of_revoked (h : events.revoked event = true) : event.Terminal := by
  have hresult : event.approvalResult = "revoked" := beq_iff_eq.mp h
  rw [Event.Terminal,hresult]
  rfl

theorem not_active_of_terminal (h : event.Terminal) (now : Time) : isActive event now = false := by
  unfold isActive
  rw [if_pos]
  simp only [bne_iff_ne]
  intro happroved
  rw [Event.Terminal,happroved] at h
  exact absurd h (by decide)

theorem upsertEdit_ne_noChange {cur : Map Event} {a : Unit} :
    Store.upsertEdit s event now cur ≠ (.error .noChange,a) := by
  unfold Store.upsertEdit
  dsimp only
  split
  · simp
  split
  next refusal hrefusal =>
    obtain ⟨old, -, htransition⟩ := Option.bind_eq_some_iff.mp hrefusal
    unfold validateTransition at htransition
    split at htransition
    · simp [← Option.some.inj htransition]
    split at htransition
    · simp [← Option.some.inj htransition]
    · contradiction
  · split <;> simp

theorem upsertContext_settled (hs : events.Canonical s.records) (hok : errorOf (s.upsertContext e event now).2 = none)
    (Q : Event → Prop) (hQ : Q event) : validKey event.tenantID event.id = true ∧
      Settled events Q (approvalKey event.tenantID event.id) (s.upsertContext e event now).1 := by
  unfold Store.upsertContext at hok ⊢
  split at hok
  · cases hok
  next hvalid =>
    have hspec := s.editLocked_spec events e (Store.upsertEdit s event now)
    rw [if_neg hvalid]
    have hvalid : validKey event.tenantID event.id = true := by simpa using hvalid
    dsimp only at hok ⊢
    split at hok
    · cases hok
    next herror =>
      exact ⟨hvalid,hspec.settled_put hs herror (fun _ _ => upsertEdit_ne_noChange)
        (fun _ _ _ => upsertEdit_rewrites hvalid) hQ⟩

theorem confirms_settled (hs : events.Canonical s.records) (h : op.Confirms tenant id (s.perform op e).2) :
    validKey tenant id = true ∧ Settled events Event.Terminal (approvalKey tenant id) (s.perform op e).1 := by
  cases op with
  | upsert event now =>
    obtain ⟨rfl, rfl, hterminal, hok⟩ := h
    exact upsertContext_settled hs hok _ hterminal
  | revoke id' reason =>
    obtain ⟨hok, event, hevent, rfl, rfl⟩ := h
    have hspec := revokeContext_spec hs e "" id' reason
    rw [Revokes.eq_of_found hok hevent] at hspec
    obtain ⟨hvalid, -, hsettled⟩ := hspec.settled hs
    exact ⟨hvalid,hsettled.mono fun _ => terminal_of_revoked⟩
  | revokeForTenant t i reason =>
    obtain ⟨rfl, rfl, hok, hevent⟩ := h
    obtain ⟨event, hevent⟩ := Option.ne_none_iff_exists'.mp hevent
    unfold Store.perform Store.revokeForTenantContext at hok hevent ⊢
    dsimp only at hok hevent ⊢
    split at hok
    · cases hok
    next hvalid =>
      rw [if_neg hvalid] at hevent ⊢
      have hvalid : validKey t i = true := by simpa using hvalid
      have hspec := revokeContext_spec hs e t i reason
      rw [Revokes.eq_of_found hok hevent] at hspec
      obtain ⟨-, hkey, hsettled⟩ := hspec.settled hs
      rw [hkey (tenant_ne_empty_of_validKey hvalid)] at hsettled
      exact ⟨hvalid,hsettled.mono fun _ => terminal_of_revoked⟩
  | refresh => exact h.elim
  | removeTenant => exact h.elim

theorem not_admits_approved {old : Event} (hold : old.Terminal) (h : event.approvalResult = "approved") :
    ¬ Admits old event := by
  intro hadmits
  unfold Admits validateTransition at hadmits
  rw [h,if_pos (by simpa [Event.Terminal] using hold)] at hadmits
  contradiction

theorem terminal_of_orderly (h : op.Orderly tenant id) {old : Event} (htouch : op.touch = .put event)
    (htenant : event.tenantID = tenant) (hid : event.id = id) (hold : old.Terminal) (hadmits : Admits old event) :
    event.Terminal := by
  cases op with
  | upsert event' now =>
    obtain rfl := Touch.put.inj htouch
    rcases h htenant hid with happroved | hterminal
    · exact absurd hadmits (not_admits_approved hold happroved)
    · exact hterminal
  | _ => cases htouch

theorem terminal_run {ls : List (Label Event Op)} (hs : machine.kind.Canonical s.records)
    (h : op.Confirms tenant id (s.perform op e).2)
    (hrun : Run (machine.OrderlyStep (Op.Orderly tenant id) tenant) (s.perform op e).1 ls s')
    (hevent : s'.records[approvalKey tenant id]? = some event) (now : Time) : isActive event now = false := by
  obtain ⟨hvalid, hsettled⟩ := confirms_settled hs h
  have hcanonical : machine.kind.Canonical (s.perform op e).1.records := (perform_performs hs op e).canonical hs
  have hfinal : Settled machine.kind Event.Terminal (recordKey tenant id) s' :=
    Machine.settled_of_orderly hvalid (fun _ => terminal_of_revoked)
      (fun op r old horderly => terminal_of_orderly horderly) hcanonical hsettled hrun
  obtain ⟨r, hr, hterminal⟩ := hfinal.here
  exact not_active_of_terminal (Option.some.inj (hr.symm.trans hevent) ▸ hterminal) now

end HumanApproval

namespace DelegatedGrant

variable {s s' : Store} {e : Ending} {tenant id : String} {grant old : Grant}

def Grant.Terminal (grant : Grant) : Prop := grant.status = "revoked" ∨ grant.status = "expired"

instance (grant : Grant) : Decidable grant.Terminal := by unfold Grant.Terminal; infer_instance

/-- A write that succeeded and left a terminal grant under the tenant and the id. A received grant that the store
retained another one for is not written, and the other one is returned. -/
def Op.Confirms (tenant id : String) : Op → Reply → Prop
  | .upsert grant _, r => grant.tenantID = tenant ∧ grant.id = id ∧ grant.Terminal ∧ r.grant = some grant
  | .upsertReceived grant _, r => grant.tenantID = tenant ∧ grant.id = id ∧ grant.Terminal ∧ r.grant = some grant
  | .revoke _ _ _, r => r.error = none ∧ ∃ grant, r.grant = some grant ∧ grant.tenantID = tenant ∧ grant.id = id
  | .revokeForTenant t i _ _, r => t = tenant ∧ i = id ∧ r.error = none ∧ r.grant ≠ none
  | _, _ => False

/-- What is asked of a later operation: a grant that it stores under the tenant and the id is active or terminal. -/
def Op.Orderly (tenant id : String) : Op → Prop
  | .upsert grant _ => grant.tenantID = tenant → grant.id = id → grant.status = "active" ∨ grant.Terminal
  | .upsertReceived grant _ => grant.tenantID = tenant → grant.id = id → grant.status = "active" ∨ grant.Terminal
  | _ => True

theorem terminal_of_revoked (h : grants.revoked grant = true) : grant.Terminal :=
  .inl (beq_iff_eq.mp h)

theorem not_active_of_terminal (h : grant.Terminal) (now : Time) : isActive grant now = false := by
  unfold isActive
  rcases h with h | h <;> rw [h] <;> rfl

theorem validateTransition_status {r : Refusal} (h : validateTransition old grant = some r) :
    r ≠ .noChange ∧ r ≠ .retainedTerminal ∧ old.status ≠ grant.status := by
  unfold validateTransition at h
  split at h
  next hc =>
    rw [Bool.and_eq_true,beq_iff_eq,bne_iff_ne] at hc
    refine ⟨?_,?_,fun heq => hc.2 (heq ▸ hc.1)⟩ <;> simp [← Option.some.inj h]
  split at h
  next hc =>
    rw [Bool.and_eq_true,beq_iff_eq,beq_iff_eq] at hc
    refine ⟨?_,?_,by rw [hc.1,hc.2]; decide⟩ <;> simp [← Option.some.inj h]
  · contradiction

theorem upsertEdit_error {received : Bool} {cur : Map Grant} {a : Option Grant} {r : Refusal}
    (h : Store.upsertEdit s grant received now cur = (.error r,a)) :
    r ≠ .noChange ∧ (r = .retainedTerminal → ∃ kept, a = some kept ∧ kept.status ≠ grant.status) := by
  unfold Store.upsertEdit at h
  dsimp only at h
  split at h
  next hpending =>
    have hne : "revoked" ≠ grant.status := by
      rw [Bool.and_eq_true,bne_iff_ne] at hpending
      exact hpending.2.symm
    split at h
    · cases h
      exact ⟨by simp,fun _ => ⟨_,rfl,hne⟩⟩
    · cases h
      exact ⟨by simp,nofun⟩
  split at h
  next refusal hrefusal =>
    obtain ⟨old, hold, htransition⟩ := Option.bind_eq_some_iff.mp hrefusal
    obtain ⟨hchange, hretained, hstatus⟩ := validateTransition_status htransition
    split at h
    · cases h
      exact ⟨by simp,fun _ => ⟨old,hold,hstatus⟩⟩
    · cases h
      exact ⟨hchange,fun heq => absurd heq hretained⟩
  · split at h
    · cases h
      exact ⟨by simp,nofun⟩
    · cases h

theorem upsertContext_settled {received : Bool} (hs : grants.Canonical s.records)
    (hok : (s.upsertContext e grant received now).2.toOption = some grant) (Q : Grant → Prop) (hQ : Q grant) :
    validKey grant.tenantID grant.id = true ∧
      Settled grants Q (grantKey grant.tenantID grant.id) (s.upsertContext e grant received now).1 := by
  unfold Store.upsertContext at hok ⊢
  split at hok
  · cases hok
  next hvalid =>
    have hspec := s.editLocked_spec grants e (Store.upsertEdit s grant received now)
    rw [if_neg hvalid]
    have hvalid : validKey grant.tenantID grant.id = true := by simpa using hvalid
    dsimp only at hok ⊢
    split at hok
    next herror =>
      exact ⟨hvalid,hspec.settled_put hs herror (fun _ _ h => (upsertEdit_error h).1 rfl)
        (fun _ _ _ => upsertEdit_rewrites hvalid) hQ⟩
    next err herror =>
      -- a grant that is returned with an error is the one the store keeps
      split at hok
      next hretained =>
        rw [hretained] at herror
        generalize s.editLocked grants e (Store.upsertEdit s grant received now) = r at hspec herror hok
        cases hspec with
        | refused _ _ hedit =>
          obtain rfl := StoreError.refused.inj (Option.some.inj herror)
          obtain ⟨kept, rfl, hkept⟩ := (upsertEdit_error hedit).2 rfl
          obtain rfl := Option.some.inj hok
          exact absurd rfl hkept
        | _ => cases herror
      next => split at hok <;> cases hok

theorem confirms_settled (hs : grants.Canonical s.records) (h : op.Confirms tenant id (s.perform op e).2) :
    validKey tenant id = true ∧ Settled grants Grant.Terminal (grantKey tenant id) (s.perform op e).1 := by
  cases op with
  | upsert grant now =>
    obtain ⟨rfl, rfl, hterminal, hok⟩ := h
    exact upsertContext_settled hs hok _ hterminal
  | upsertReceived grant now =>
    obtain ⟨rfl, rfl, hterminal, hok⟩ := h
    exact upsertContext_settled hs hok _ hterminal
  | revoke id' reason now =>
    obtain ⟨hok, grant, hgrant, rfl, rfl⟩ := h
    have hspec := revokeContext_spec hs e "" id' reason now
    rw [Revokes.eq_of_found hok hgrant] at hspec
    obtain ⟨hvalid, -, hsettled⟩ := hspec.settled hs
    exact ⟨hvalid,hsettled.mono fun _ => terminal_of_revoked⟩
  | revokeForTenant t i reason now =>
    obtain ⟨rfl, rfl, hok, hgrant⟩ := h
    obtain ⟨grant, hgrant⟩ := Option.ne_none_iff_exists'.mp hgrant
    unfold Store.perform Store.revokeForTenantContext at hok hgrant ⊢
    dsimp only at hok hgrant ⊢
    split at hok
    · cases hok
    next hvalid =>
      rw [if_neg hvalid] at hgrant ⊢
      have hvalid : validKey t i = true := by simpa using hvalid
      have hspec := revokeContext_spec hs e t i reason now
      rw [Revokes.eq_of_found hok hgrant] at hspec
      obtain ⟨-, hkey, hsettled⟩ := hspec.settled hs
      rw [hkey (tenant_ne_empty_of_validKey hvalid)] at hsettled
      exact ⟨hvalid,hsettled.mono fun _ => terminal_of_revoked⟩
  | refresh => exact h.elim
  | removeTenant => exact h.elim

theorem not_admits_active (hold : old.Terminal) (h : grant.status = "active") : ¬ Admits old grant := by
  intro hadmits
  unfold Admits validateTransition at hadmits
  rcases hold with hold | hold <;> simp [hold,h] at hadmits

theorem terminal_of_orderly (h : op.Orderly tenant id) (htouch : op.touch = .put grant)
    (htenant : grant.tenantID = tenant) (hid : grant.id = id) (hold : old.Terminal) (hadmits : Admits old grant) :
    grant.Terminal := by
  have hor : grant.status = "active" ∨ grant.Terminal := by
    cases op with
    | upsert grant' now =>
      obtain rfl := Touch.put.inj htouch
      exact h htenant hid
    | upsertReceived grant' now =>
      obtain rfl := Touch.put.inj htouch
      exact h htenant hid
    | _ => cases htouch
  exact hor.resolve_left fun hactive => not_admits_active hold hactive hadmits

theorem terminal_run {ls : List (Label Grant Op)} (hs : machine.kind.Canonical s.records)
    (h : op.Confirms tenant id (s.perform op e).2)
    (hrun : Run (machine.OrderlyStep (Op.Orderly tenant id) tenant) (s.perform op e).1 ls s')
    (hgrant : s'.records[grantKey tenant id]? = some grant) (now : Time) : isActive grant now = false := by
  obtain ⟨hvalid, hsettled⟩ := confirms_settled hs h
  have hcanonical : machine.kind.Canonical (s.perform op e).1.records := (perform_performs hs op e).canonical hs
  have hfinal : Settled machine.kind Grant.Terminal (recordKey tenant id) s' :=
    Machine.settled_of_orderly hvalid (fun _ => terminal_of_revoked)
      (fun op r old horderly => terminal_of_orderly horderly) hcanonical hsettled hrun
  obtain ⟨r, hr, hterminal⟩ := hfinal.here
  exact not_active_of_terminal (Option.some.inj (hr.symm.trans hgrant) ▸ hterminal) now

end DelegatedGrant

namespace Authorization

/-- In both stores: once a successful write has confirmed a terminal record, the record is not active in any state
that later operations reach, whatever becomes of their saves, if none of them stores a result there that is neither
terminal nor the active one, and if no removal of the tenant has succeeded or committed. -/
theorem terminal_authorizations_stay (tenant id : String) :
    (∀ capacity p row ls s op e ls' s',
      Run HumanApproval.machine.Step ((Node.newStore capacity).setPersister HumanApproval.machine.kind p row) ls s →
      HumanApproval.Op.Confirms tenant id op (HumanApproval.Store.perform s op e).2 →
      Run (HumanApproval.machine.OrderlyStep (HumanApproval.Op.Orderly tenant id) tenant)
        (HumanApproval.Store.perform s op e).1 ls' s' →
      ∀ event, s'.records[HumanApproval.approvalKey tenant id]? = some event →
        ∀ now, HumanApproval.isActive event now = false) ∧
    (∀ capacity p row ls s op e ls' s',
      Run DelegatedGrant.machine.Step ((Node.newStore capacity).setPersister DelegatedGrant.machine.kind p row) ls s →
      DelegatedGrant.Op.Confirms tenant id op (DelegatedGrant.Store.perform s op e).2 →
      Run (DelegatedGrant.machine.OrderlyStep (DelegatedGrant.Op.Orderly tenant id) tenant)
        (DelegatedGrant.Store.perform s op e).1 ls' s' →
      ∀ grant, s'.records[DelegatedGrant.grantKey tenant id]? = some grant →
        ∀ now, DelegatedGrant.isActive grant now = false) := by
  constructor
  · intro capacity p row ls s op e ls' s' hstart hconfirms hrun event hevent now
    exact HumanApproval.terminal_run (Machine.canonical_of_run hstart) hconfirms hrun hevent now
  · intro capacity p row ls s op e ls' s' hstart hconfirms hrun grant hgrant now
    exact DelegatedGrant.terminal_run (Machine.canonical_of_run hstart) hconfirms hrun hgrant now

section Fixed

open Machine

private def approval (result : String) : HumanApproval.Op := .upsert ⟨"a1","acme",result,none,none,none⟩ 0

private def delegation (status : String) : DelegatedGrant.Op :=
  .upsert ⟨"g1","acme",status,"",none,none⟩ 0

/-- An approval that was denied cannot be approved in the next step. -/
theorem denied_approval_stays : HumanApproval.isActive ⟨"a1","acme","denied",none,none,none⟩ 0 = false := by
  refine (terminal_authorizations_stay "acme" "a1").1 0 .none none [] (Node.newStore 0) (approval "denied") .committed
    [.own (approval "approved") .committed] _ (.nil _) ⟨rfl,rfl,rfl,by decide +kernel⟩
    ((Run.nil _).snoc ⟨rfl,_,_,rfl,nofun,fun _ _ => .inl rfl⟩) _ ?_ 0
  decide +kernel

/-- With another result in between, a denied approval and an expired grant become active again. -/
theorem denied_approval_returns :
    HumanApproval.Op.Confirms "acme" "a1" (approval "denied")
      (HumanApproval.Store.perform (Node.newStore 0) (approval "denied") .committed).2 ∧
    ([approval "denied",approval "pending",approval "approved"].foldl
      (fun s op => (HumanApproval.Store.perform s op .committed).1)
      (Node.newStore 0)).records[HumanApproval.approvalKey "acme" "a1"]?.any (HumanApproval.isActive · 0) = true ∧
    DelegatedGrant.Op.Confirms "acme" "g1" (delegation "expired")
      (DelegatedGrant.Store.perform (Node.newStore 0) (delegation "expired") .committed).2 ∧
    ([delegation "expired",delegation "suspended",delegation "active"].foldl
      (fun s op => (DelegatedGrant.Store.perform s op .committed).1)
      (Node.newStore 0)).records[DelegatedGrant.grantKey "acme" "g1"]?.any (DelegatedGrant.isActive · 0) = true := by
  refine ⟨⟨rfl,rfl,rfl,?_⟩,?_,⟨rfl,rfl,.inr rfl,?_⟩,?_⟩ <;> decide +kernel

end Fixed

end Authorization

end DsseCore
